import FileLore.Path
import FileLore.Proofs.Text.Parts

/-!
# The extension of a path

A path that leads to a file with an extension is spelled in a fixed way
(`extension?_eq_some_iff`): the directory, the name up to its last dot, the dot,
the extension, and perhaps slashes and names `.` behind it, which lead nowhere.
What stands before the last dot is never empty, so a name whose only dot is in
front has no extension.
-/

namespace FileLore.Path

open Text

variable {path : String} {text dir stem extension name tail more : List Char}

/-! ## What leads nowhere -/

/-- Whether what follows a name in a path leads no further: slashes and names `.` only. -/
inductive StaysHere : List Char → Prop where
  | nil : StaysHere []
  | slash {tail : List Char} (h : StaysHere tail) : StaysHere ('/' :: tail)
  | here {tail : List Char} (h : StaysHere tail) : StaysHere ('/' :: '.' :: tail)

theorem StaysHere.append (h : StaysHere tail) (hmore : StaysHere more) :
    StaysHere (tail ++ more) := by
  induction h with
  | nil => exact hmore
  | slash _ ih => exact ih.slash
  | here _ ih => exact ih.here

/-- What leads nowhere is nothing or ends in a slash or a dot. -/
theorem StaysHere.getLast? (h : StaysHere tail) :
    tail = [] ∨ tail.getLast? = some '/' ∨ tail.getLast? = some '.' := by
  induction h with
  | nil => exact .inl rfl
  | slash _ ih =>
    rcases ih with rfl | hlast | hlast
    · exact .inr (.inl rfl)
    · exact .inr (.inl (by rw [List.getLast?_cons, hlast]; rfl))
    · exact .inr (.inr (by rw [List.getLast?_cons, hlast]; rfl))
  | here _ ih =>
    rcases ih with rfl | hlast | hlast
    · exact .inr (.inr rfl)
    · exact .inr (.inl (by rw [List.getLast?_cons, List.getLast?_cons, hlast]; rfl))
    · exact .inr (.inr (by rw [List.getLast?_cons, List.getLast?_cons, hlast]; rfl))

/-- Whether a name may begin behind a text: the text is empty or ends in a slash. -/
def EndsDirectory (dir : List Char) : Prop :=
  dir = [] ∨ ∃ before, dir = before ++ ['/']

theorem exists_directory (text : List Char) :
    ∃ dir name, text = dir ++ name ∧ EndsDirectory dir ∧ '/' ∉ name := by
  by_cases hslash : '/' ∈ text
  · obtain ⟨before, last, rfl, hlast⟩ := exists_last hslash
    exact ⟨before ++ ['/'], last, by simp, .inr ⟨before, rfl⟩, hlast⟩
  · exact ⟨[], text, rfl, .inl rfl, hslash⟩

/-- What follows the last slash of a path is what stands behind its directory. -/
theorem EndsDirectory.afterLastSlash (h : EndsDirectory dir) (hname : '/' ∉ name) :
    afterLastSlash (dir ++ name) = name := by
  rcases h with rfl | ⟨before, rfl⟩
  · rw [Path.afterLastSlash, List.nil_append,
      takeWhile_of_notMem (mt List.mem_reverse.mp hname), List.reverse_reverse]
  · rw [Path.afterLastSlash, List.append_assoc, List.singleton_append,
      takeWhile_reverse_cut hname, List.reverse_reverse]

theorem baseName_eq_iff (hpath : path.toList = dir ++ text) (h : EndsDirectory dir)
    (htext : '/' ∉ text) {base : String} : baseName path = base ↔ text = base.toList := by
  rw [baseName, hpath, h.afterLastSlash htext, ← String.toList_inj, String.toList_ofList]

/-! ## Names -/

/-- The names of a path given as a text. -/
def namesIn (text : List Char) : List (List Char) :=
  (splitAt '/' text).filter fun name => !name.isEmpty && name != ['.']

theorem names_toList (path : String) : names path = namesIn path.toList := rfl

theorem namesIn_append (before after : List Char) :
    namesIn (before ++ '/' :: after) = namesIn before ++ namesIn after := by
  rw [namesIn, splitAt_append, List.filter_append]
  rfl

theorem namesIn_of_notMem (h : '/' ∉ text) :
    namesIn text = if text = [] ∨ text = ['.'] then [] else [text] := by
  rw [namesIn, splitAt_of_notMem h]
  by_cases hempty : text = []
  · simp [hempty]
  · by_cases hhere : text = ['.']
    · simp [hhere]
    · simp [hempty, hhere]

/-- What leads nowhere adds no names. -/
theorem StaysHere.namesIn_append (h : StaysHere tail) :
    ∀ text, namesIn (text ++ tail) = namesIn text := by
  induction h with
  | nil =>
    intro text
    rw [List.append_nil]
  | @slash tail _ ih =>
    intro text
    have hslash := Path.namesIn_append text []
    rw [List.append_cons, ih, hslash]
    exact List.append_nil _
  | @here tail _ ih =>
    intro text
    have hhere := Path.namesIn_append text ['.']
    rw [List.append_cons, List.append_cons, ih, List.append_assoc]
    exact hhere.trans (List.append_nil _)

theorem EndsDirectory.namesIn_append (h : EndsDirectory dir) (text : List Char) :
    namesIn (dir ++ text) = namesIn dir ++ namesIn text := by
  rcases h with rfl | ⟨before, rfl⟩
  · rfl
  · have hslash := Path.namesIn_append before []
    rw [List.append_assoc, List.singleton_append, Path.namesIn_append, hslash]
    exact congrArg (· ++ namesIn text) (List.append_nil _).symm

/-- The last name of a path stands behind a directory, and what follows it leads nowhere. -/
theorem exists_of_getLast?_namesIn : ∀ text : List Char, (namesIn text).getLast? = some name →
    ∃ dir tail, text = dir ++ (name ++ tail) ∧ EndsDirectory dir ∧ StaysHere tail ∧ '/' ∉ name := by
  intro text
  -- From the back of the path: what follows its last slash is its last name or leads nowhere.
  induction hlength : text.length using Nat.strongRecOn generalizing text with
  | ind length ih =>
    subst hlength
    intro h
    by_cases hslash : '/' ∈ text
    · obtain ⟨before, last, rfl, hlast⟩ := exists_last hslash
      rw [namesIn_append, namesIn_of_notMem hlast] at h
      by_cases hhere : last = [] ∨ last = ['.']
      · rw [if_pos hhere, List.append_nil] at h
        obtain ⟨dir, tail, rfl, hdir, htail, hname⟩ := ih before.length (by simp) before rfl h
        refine ⟨dir, tail ++ '/' :: last, by simp, hdir, htail.append ?_, hname⟩
        rcases hhere with rfl | rfl
        · exact StaysHere.nil.slash
        · exact StaysHere.nil.here
      · rw [if_neg hhere, List.getLast?_concat] at h
        obtain rfl := Option.some.inj h
        exact ⟨before ++ ['/'], [], by simp, .inr ⟨before, rfl⟩, .nil, hlast⟩
    · rw [namesIn_of_notMem hslash] at h
      split at h
      · cases h
      · obtain rfl := Option.some.inj h
        exact ⟨[], [], by simp, .inl rfl, .nil, hslash⟩

/-- Whether a text is the name of a file: no slash in it, and neither empty nor a name of a
directory by its place. -/
structure IsFileName (name : List Char) : Prop where
  noSlash : '/' ∉ name
  nonempty : name ≠ []
  notHere : name ≠ ['.']
  notUp : name ≠ ['.', '.']

/-- **The file that a path leads to**: its last name, if that is the name of a file. -/
theorem fileName?_eq_some_iff : fileName? path = some name ↔
    IsFileName name ∧ ∃ dir tail, path.toList = dir ++ (name ++ tail) ∧ EndsDirectory dir ∧
      StaysHere tail := by
  constructor
  · intro h
    rw [fileName?, names_toList] at h
    split at h
    · next last hlast =>
      split at h
      · cases h
      · next hup =>
        obtain rfl := Option.some.inj h
        obtain ⟨dir, tail, hpath, hdir, htail, hslash⟩ := exists_of_getLast?_namesIn _ hlast
        have hkept := (List.mem_filter.mp (List.mem_of_getLast? hlast)).2
        simp only [Bool.and_eq_true, Bool.not_eq_true', List.isEmpty_eq_false_iff,
          bne_iff_ne] at hkept
        exact ⟨⟨hslash, hkept.1, hkept.2, hup⟩, dir, tail, hpath, hdir, htail⟩
    · cases h
  · rintro ⟨hname, dir, tail, hpath, hdir, htail⟩
    have hself : namesIn name = [name] := by
      rw [namesIn_of_notMem hname.noSlash, if_neg (not_or.mpr ⟨hname.nonempty, hname.notHere⟩)]
    have hlast : (names path).getLast? = some name := by
      rw [names_toList, hpath, hdir.namesIn_append, htail.namesIn_append, hself,
        List.getLast?_concat]
    rw [fileName?, hlast]
    exact if_neg hname.notUp

/-! ## Extensions -/

/-- A path taken apart: the directory, what stands before the last dot of the name, the extension,
and what leads nowhere behind the name. -/
structure Spells (path dir stem extension tail : List Char) : Prop where
  path_eq : path = dir ++ (stem ++ '.' :: extension ++ tail)
  directory : EndsDirectory dir
  stem_noSlash : '/' ∉ stem
  stem_nonempty : stem ≠ []
  noSlash : '/' ∉ extension
  noDot : '.' ∉ extension
  notUp : ¬(stem = ['.'] ∧ extension = [])
  leadsNowhere : StaysHere tail

/-- What a name has behind its last dot, unless nothing stands before that dot. -/
theorem extension_of_name (name : List Char) :
    (match name.reverse.dropWhile (· != '.') with
      | '.' :: _ :: _ => some (name.reverse.takeWhile (· != '.')).reverse
      | _ => none) = some extension ↔
    ∃ stem, name = stem ++ '.' :: extension ∧ stem ≠ [] ∧ '.' ∉ extension := by
  by_cases hdot : '.' ∈ name
  · -- The name is cut at its last dot; what stands before it decides.
    obtain ⟨before, after, rfl, hafter⟩ := exists_last hdot
    rw [dropWhile_reverse_cut hafter, takeWhile_reverse_cut hafter, List.reverse_reverse]
    cases hbefore : before.reverse with
    | nil =>
      obtain rfl := List.reverse_eq_nil_iff.mp hbefore
      refine ⟨nofun, ?_⟩
      rintro ⟨stem, hname, hstem, hnone⟩
      exact absurd (cut_last_unique hname hafter hnone).1.symm hstem
    | cons c more =>
      have hne : before ≠ [] := fun heq => by simp [heq] at hbefore
      constructor
      · intro h
        obtain rfl := Option.some.inj h
        exact ⟨before, rfl, hne, hafter⟩
      · rintro ⟨stem, hname, -, hnone⟩
        exact congrArg some (cut_last_unique hname hafter hnone).2
  · rw [dropWhile_of_notMem (mt List.mem_reverse.mp hdot)]
    refine ⟨nofun, ?_⟩
    rintro ⟨stem, rfl, -, -⟩
    exact absurd (List.mem_append_right stem List.mem_cons_self) hdot

theorem extension?_eq (path : String) :
    extension? path = some extension ↔
      ∃ name, fileName? path = some name ∧
        ∃ stem, name = stem ++ '.' :: extension ∧ stem ≠ [] ∧ '.' ∉ extension := by
  rw [extension?]
  cases fileName? path with
  | none => exact ⟨nofun, fun ⟨_, hname, _⟩ => nomatch hname⟩
  | some name =>
    refine (extension_of_name name).trans ⟨fun h => ⟨name, rfl, h⟩, ?_⟩
    rintro ⟨other, heq, h⟩
    obtain rfl := Option.some.inj heq
    exact h

/-- **The extension of a path** is what its spelling shows. -/
theorem extension?_eq_some_iff : extension? path = some extension ↔
    ∃ dir stem tail, Spells path.toList dir stem extension tail := by
  rw [extension?_eq]
  constructor
  · rintro ⟨name, hname, stem, rfl, hstem, hdot⟩
    obtain ⟨hfile, dir, tail, hpath, hdir, htail⟩ := fileName?_eq_some_iff.mp hname
    have hslash := hfile.noSlash
    rw [List.mem_append, List.mem_cons, not_or, not_or] at hslash
    refine ⟨dir, stem, tail, hpath, hdir, hslash.1, hstem, hslash.2.2, hdot, ?_, htail⟩
    rintro ⟨rfl, rfl⟩
    exact hfile.notUp rfl
  · rintro ⟨dir, stem, tail, h⟩
    have hfile : IsFileName (stem ++ '.' :: extension) := by
      have hcut {other : List Char} (heq : stem ++ '.' :: extension = other ++ '.' :: []) :
          stem = other ∧ extension = [] := cut_last_unique heq h.noDot List.not_mem_nil
      refine ⟨?_, by simp, fun heq => ?_, fun heq => ?_⟩
      · simp [h.stem_noSlash, h.noSlash]
      · have hhere : stem = [] ∧ extension = [] := hcut heq
        exact h.stem_nonempty hhere.1
      · have hup : stem = ['.'] ∧ extension = [] := hcut heq
        exact h.notUp hup
    exact ⟨_, fileName?_eq_some_iff.mpr ⟨hfile, dir, tail, h.path_eq, h.directory, h.leadsNowhere⟩,
      stem, rfl, h.stem_nonempty, h.noDot⟩

end FileLore.Path
