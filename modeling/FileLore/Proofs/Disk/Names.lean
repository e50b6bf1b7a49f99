import FileLore.Disk.Operation
import FileLore.Proofs.Text.Parts

/-!
# The names in a path

A disk follows a path name by name, so what matters of a path is the list of its
names and where it starts. This file says what becomes of both when a name is
joined to a path (`pathNames_join`) and when a path is cut back to its parent
(`parent?_names`). A parent loses the last name and no other, apart from names
`.`, which lead nowhere; hence the names of every ancestor are a beginning of
the names of the path (`mem_ancestors`).
-/

namespace FileLore

namespace Disk

open Text

/-- The names in a text that is read as a path. -/
def namesOf (text : List Char) : List String :=
  ((splitAt '/' text).filter (!·.isEmpty)).map String.ofList

theorem pathNames_eq (path : String) : pathNames path = namesOf path.toList := rfl

@[simp] theorem namesOf_nil : namesOf [] = [] := rfl

/-- The names around a slash are the names before it and those after it. -/
theorem namesOf_append (before after : List Char) :
    namesOf (before ++ '/' :: after) = namesOf before ++ namesOf after := by
  simp only [namesOf, splitAt_append, List.filter_append, List.map_append]

theorem namesOf_slash (text : List Char) : namesOf (text ++ ['/']) = namesOf text := by
  rw [namesOf_append, namesOf_nil, List.append_nil]

theorem namesOf_of_notMem {text : List Char} (hne : text ≠ []) (h : '/' ∉ text) :
    namesOf text = [String.ofList text] := by
  simp [namesOf, splitAt_of_notMem h, hne]

/-- What stands between a path and a name that is joined to it. -/
def slashAfter (base : String) : String :=
  if base.isEmpty || base.toList.getLast? == some '/' then "" else "/"

/-- A name that can stand in a directory: not empty, without slashes, and neither of the names with
a meaning of their own. -/
structure IsPlain (name : String) : Prop where
  noSlash : '/' ∉ name.toList
  ne_empty : name ≠ ""
  ne_here : name ≠ "."
  ne_up : name ≠ ".."

namespace IsPlain

variable {name : String}

theorem toList_ne_nil (h : IsPlain name) : name.toList ≠ [] := fun e =>
  h.ne_empty (by rw [← String.ofList_toList (s := name), e])

theorem head?_ne (h : IsPlain name) : name.toList.head? ≠ some '/' := fun e =>
  h.noSlash (List.mem_of_mem_head? e)

theorem pathNames (h : IsPlain name) : Disk.pathNames name = [name] := by
  rw [pathNames_eq, namesOf_of_notMem h.toList_ne_nil h.noSlash, String.ofList_toList]

/-- A plain name is joined with at most a slash in between, which depends on the path alone. -/
theorem join_eq (h : IsPlain name) (base : String) :
    Path.join base name = base ++ slashAfter base ++ name := by
  have hrel : Path.isAbsolute name = false := by
    simpa [Path.isAbsolute] using h.head?_ne
  rw [Path.join, hrel, if_neg Bool.false_ne_true, slashAfter]
  split
  next => rw [String.append_empty]
  next => rfl

theorem join_cases (h : IsPlain name) (base : String) :
    (base = "" ∧ Path.join base name = name) ∨
    (∃ front, base.toList = front ++ ['/'] ∧ Path.join base name = base ++ name) ∨
    (base ≠ "" ∧ Path.join base name = base ++ "/" ++ name) := by
  rw [h.join_eq, slashAfter]
  by_cases hempty : base = ""
  · subst hempty
    exact Or.inl ⟨rfl, by simp⟩
  by_cases hlast : base.toList.getLast? = some '/'
  · obtain ⟨front, hfront⟩ := List.getLast?_eq_some_iff.mp hlast
    exact Or.inr (Or.inl ⟨front, hfront, by simp [hlast]⟩)
  · exact Or.inr (Or.inr ⟨hempty, by simp [hempty, hlast]⟩)

end IsPlain

/-- Joining a plain name to a path adds this name to its names. -/
theorem pathNames_join {name : String} (h : IsPlain name) (base : String) :
    pathNames (Path.join base name) = pathNames base ++ [name] := by
  have hname : namesOf name.toList = [name] := h.pathNames
  rcases h.join_cases base with ⟨rfl, hj⟩ | ⟨front, hb, hj⟩ | ⟨_, hj⟩
  · rw [hj, h.pathNames]
    rfl
  · rw [hj, pathNames_eq, String.toList_append, hb, pathNames_eq, hb, namesOf_slash,
      List.append_assoc, List.singleton_append, namesOf_append, hname]
  · rw [hj, pathNames_eq, String.toList_append, String.toList_append, List.append_assoc,
      show "/".toList = ['/'] from rfl, List.singleton_append, namesOf_append, hname]
    rfl

theorem startOf_join {name : String} (h : IsPlain name) (disk : Disk) (base : String) :
    disk.startOf (Path.join base name) = disk.startOf base := by
  have hhead : (name.toList.head? == some '/') = false := by simpa using h.head?_ne
  rcases h.join_cases base with ⟨rfl, hj⟩ | ⟨front, hb, hj⟩ | ⟨hb, hj⟩
  · rw [hj]
    simp [startOf, hhead]
  · rw [hj]
    cases front <;> simp [startOf, hb]
  · rw [hj]
    obtain ⟨c, rest, hc⟩ := List.exists_cons_of_ne_nil
      (fun e => hb (String.toList_inj.mp e) : base.toList ≠ [])
    simp [startOf, hc]

theorem endsInSlash_join {name : String} (h : IsPlain name) (base : String) :
    endsInSlash (Path.join base name) = false := by
  have hlast : name.toList.getLast? ≠ some '/' := fun e => h.noSlash (List.mem_of_getLast? e)
  obtain ⟨front, c, hc⟩ := List.eq_nil_or_concat name.toList |>.resolve_left h.toList_ne_nil
  have hend (more : List Char) : (more ++ name.toList).getLast? = name.toList.getLast? := by
    simp [hc]
  rcases h.join_cases base with ⟨rfl, hj⟩ | ⟨front, hb, hj⟩ | ⟨hb, hj⟩
  · rw [hj]
    simpa [endsInSlash] using hlast
  · rw [hj]
    simpa [endsInSlash, hend] using hlast
  · rw [hj, endsInSlash, String.toList_append, hend]
    simpa using hlast

/-! ## Parents -/

/-- Cutting trailing slashes and names `.` off a text takes no other names away. -/
theorem namesOf_trimmedBack (back : List Char) :
    ∃ dots, namesOf back.reverse = namesOf (Path.trimmedBack back).reverse ++ dots ∧
      ∀ name ∈ dots, name = "." := by
  fun_induction Path.trimmedBack back with
  | case1 => exact ⟨[], by simp, by simp⟩
  | case2 rest _ ih =>
    obtain ⟨dots, hdots, hall⟩ := ih
    exact ⟨dots, by rw [List.reverse_cons, namesOf_slash, hdots], hall⟩
  | case3 rest ih =>
    obtain ⟨dots, hdots, hall⟩ := ih
    refine ⟨dots ++ ["."], ?_, ?_⟩
    · rw [← List.append_assoc, ← hdots, List.reverse_cons, List.reverse_cons, namesOf_slash,
        List.append_assoc, List.singleton_append, namesOf_append]
      rfl
    · intro name hname
      rcases List.mem_append.mp hname with h | h
      · exact hall name h
      · exact List.mem_singleton.mp h
  | case4 => exact ⟨[], by simp, by simp⟩

theorem trimmedBack_suffix (back : List Char) : Path.trimmedBack back <:+ back := by
  fun_induction Path.trimmedBack back with
  | case1 => exact List.suffix_refl _
  | case2 rest _ ih => exact ih.trans (List.suffix_cons _ _)
  | case3 rest ih => exact ih.trans (List.suffix_cons _ _)
  | case4 => exact List.suffix_refl _

theorem trimmedBack_eq_nil {back : List Char} (h : Path.trimmedBack back = []) : back = [] := by
  fun_induction Path.trimmedBack back with
  | case1 => exact h
  | case2 rest hrest ih => exact absurd (ih h) hrest
  | case3 rest ih => exact absurd (ih h) (List.cons_ne_nil _ _)
  | case4 => exact h

/-- Only the root keeps a slash at its end. -/
theorem trimmedBack_head {back rest : List Char} (h : Path.trimmedBack back = '/' :: rest) :
    rest = [] := by
  fun_induction Path.trimmedBack back with
  | case1 => simpa using h.symm
  | case2 rest _ ih => exact ih h
  | case3 rest ih => exact ih h
  | case4 back h1 h2 h3 =>
    subst h
    cases rest with
    | nil => rfl
    | cons c more => exact absurd rfl (h2 (c :: more))

/-- Two texts whose reverses have a common end that is not empty start alike. -/
theorem head?_reverse_suffix {short long : List Char} (h : short <:+ long) (hne : short ≠ []) :
    short.reverse.head? = long.reverse.head? := by
  obtain ⟨front, rfl⟩ := h
  rw [List.head?_reverse, List.head?_reverse, List.getLast?_append]
  obtain ⟨init, c, rfl⟩ := List.eq_nil_or_concat short |>.resolve_left hne
  simp

/-- A text has no slash, or it can be cut before the first one. -/
theorem dropWhile_slash_cases (back : List Char) :
    ('/' ∉ back ∧ back.dropWhile (· != '/') = []) ∨
    ∃ front rest, back = front ++ '/' :: rest ∧ '/' ∉ front ∧
      back.dropWhile (· != '/') = '/' :: rest := by
  induction back with
  | nil => exact Or.inl ⟨List.not_mem_nil, rfl⟩
  | cons c more ih =>
    by_cases hc : c = '/'
    · subst hc
      exact Or.inr ⟨[], more, rfl, List.not_mem_nil, rfl⟩
    · have hkeep : (c :: more).dropWhile (· != '/') = more.dropWhile (· != '/') :=
        List.dropWhile_cons_of_pos (by simpa using hc)
      rw [hkeep]
      rcases ih with ⟨hno, hd⟩ | ⟨front, rest, rfl, hno, hd⟩
      · exact Or.inl ⟨by simp [Ne.symm hc, hno], hd⟩
      · exact Or.inr ⟨c :: front, rest, rfl, by simp [Ne.symm hc, hno], hd⟩

/-- **What a path loses on the way to its parent**: its last name, along with names `.` around it.
Both start at the same place. -/
theorem parent?_names {path parent : String} (h : Path.parent? path = some parent) :
    (∃ between last after, pathNames path = pathNames parent ++ between ++ last :: after ∧
      (∀ name ∈ between, name = ".") ∧ ∀ name ∈ after, name = ".") ∧
    ∀ disk : Disk, disk.startOf parent = disk.startOf path := by
  obtain ⟨after, hafter, hafterAll⟩ := namesOf_trimmedBack path.toList.reverse
  have hsuffix := trimmedBack_suffix path.toList.reverse
  have hroot (rest : List Char) := @trimmedBack_head path.toList.reverse rest
  rw [List.reverse_reverse] at hafter
  unfold Path.parent? at h
  -- From here on only what cutting keeps of the path counts, not the path itself.
  generalize Path.trimmedBack path.toList.reverse = back at h hafter hsuffix hroot
  split at h
  next => cases h
  next => cases h
  next hne hnotRoot =>
    injection h with h
    subst h
    have hhead := head?_reverse_suffix hsuffix hne
    rw [List.reverse_reverse] at hhead
    rcases dropWhile_slash_cases back with ⟨hno, hd⟩ | ⟨front, rest, rfl, hno, hd⟩
    · -- A single name: the parent is the place that the path starts from.
      rw [hd]
      refine ⟨⟨[], String.ofList back.reverse, after, ?_, by simp, hafterAll⟩, fun disk => ?_⟩
      · rw [pathNames_eq, hafter, namesOf_of_notMem (by simpa using hne) (by simpa using hno)]
        rfl
      · have hrel : path.toList.head? ≠ some '/' := by
          rw [← hhead]
          exact fun e => hno (List.mem_reverse.mp (List.mem_of_mem_head? e))
        have : (path.toList.head? == some '/') = false := by simpa using hrel
        simp [startOf, this, Path.trimmedBack]
    · -- A name behind a slash: the parent is what stands before it, cut back once more.
      rw [hd]
      obtain ⟨between, hbetween, hbetweenAll⟩ := namesOf_trimmedBack ('/' :: rest)
      have hfront : front ≠ [] := by
        rintro rfl
        have := hroot rest rfl
        subst this
        exact hnotRoot rfl
      refine ⟨⟨between, String.ofList front.reverse, after, ?_, hbetweenAll, hafterAll⟩,
        fun disk => ?_⟩
      · have hrev : (front ++ '/' :: rest).reverse = rest.reverse ++ '/' :: front.reverse := by
          simp
        have hlast : namesOf front.reverse = [String.ofList front.reverse] :=
          namesOf_of_notMem (by simpa using hfront) (by simpa using hno)
        rw [pathNames_eq, hafter, hrev, namesOf_append, hlast, pathNames_eq,
          String.toList_ofList, ← hbetween, List.reverse_cons, namesOf_slash, List.append_assoc]
        rfl
      · have htrim : Path.trimmedBack ('/' :: rest) ≠ [] := fun e =>
          absurd (trimmedBack_eq_nil e) (List.cons_ne_nil _ _)
        have hsame := head?_reverse_suffix
          ((trimmedBack_suffix ('/' :: rest)).trans (List.suffix_append front _)) htrim
        simp only [startOf, String.toList_ofList, hsame, hhead]

/-- **The ancestors of a path start where it starts, and their names are the first of its names.** -/
theorem mem_ancestors {path ancestor : String} (h : ancestor ∈ Path.ancestors path) :
    pathNames ancestor <+: pathNames path ∧
      ∀ disk : Disk, disk.startOf ancestor = disk.startOf path := by
  suffices hfrom : ∀ fuel path, ancestor ∈ Path.ancestorsFrom fuel path →
      pathNames ancestor <+: pathNames path ∧
        ∀ disk : Disk, disk.startOf ancestor = disk.startOf path from hfrom _ path h
  intro fuel
  induction fuel with
  | zero => intro path h; cases h
  | succ fuel ih =>
    intro path h
    rw [Path.ancestorsFrom] at h
    split at h
    next => cases h
    next parent hparent =>
      rcases List.mem_cons.mp h with rfl | hmore
      · exact ⟨List.prefix_refl _, fun _ => rfl⟩
      · obtain ⟨⟨between, last, after, hnames, _⟩, hstart⟩ := parent?_names hparent
        obtain ⟨hfront, hstart'⟩ := ih parent hmore
        refine ⟨hfront.trans ?_, fun disk => (hstart' disk).trans (hstart disk)⟩
        rw [hnames, List.append_assoc]
        exact List.prefix_append _ _

end Disk

end FileLore
