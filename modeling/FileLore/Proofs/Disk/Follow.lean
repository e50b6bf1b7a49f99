import FileLore.Proofs.Disk.Names

/-!
# What a path leads to, as a disk changes

`follow` is the place that all names of a path lead to. A path that can be
followed leads to the same place as long as no directory goes away
(`follow_mono`); no operation ever removes one, so a directory once reached
stays within reach.

A name joined to a path is looked for in the place that the path leads to
(`destination?_join`, `find?_join`). What stands there, and below it, is
`standing`: the view in which changes to a disk are compared.
-/

namespace FileLore.Disk

variable {disk next : Disk} {here there : Location} {base name other : String}

/-- The place that the names of a path lead to. -/
def follow (disk : Disk) (path : String) : Except DiskError Location :=
  disk.enterAll (disk.startOf path) (pathNames path)

/-- Whether `next` still has every directory of `disk`. -/
structure KeepsDirectories (disk next : Disk) : Prop where
  working : next.workingDirectory = disk.workingDirectory
  directory : ∀ location, disk.at? location = some .directory →
    next.at? location = some .directory

namespace KeepsDirectories

theorem refl (disk : Disk) : KeepsDirectories disk disk := ⟨rfl, fun _ h => h⟩

theorem trans {last : Disk} (h : KeepsDirectories disk next) (h' : KeepsDirectories next last) :
    KeepsDirectories disk last :=
  ⟨h'.working.trans h.working, fun location hd => h'.directory location (h.directory location hd)⟩

end KeepsDirectories

theorem ne_root_of_at?_ne (h : disk.at? here ≠ some .directory) : here ≠ [] := by
  rintro rfl
  exact h (at?_root disk)

/-- Putting something where no directory stands keeps every directory. -/
theorem keepsDirectories_put (h : disk.at? here ≠ some .directory) (entry : Entry) :
    KeepsDirectories disk (disk.put here entry) := by
  refine ⟨rfl, fun location hd => ?_⟩
  have hne : location ≠ here := by
    rintro rfl
    exact h hd
  rw [at?_put_ne hne, hd]

theorem keepsDirectories_erase (h : disk.at? here ≠ some .directory) :
    KeepsDirectories disk (disk.erase here) := by
  refine ⟨rfl, fun location hd => ?_⟩
  have hne : location ≠ here := by
    rintro rfl
    exact h hd
  rw [at?_erase_ne hne, hd]

theorem isDirectory_iff : disk.isDirectory here = true ↔ disk.at? here = some .directory := by
  unfold isDirectory
  cases disk.at? here with
  | none => simp
  | some entry => cases entry <;> simp

/-! ## Entering directories one after the other -/

@[simp] theorem enter_here : disk.enter here "." = .ok here := rfl

/-- Entering a name other than `.` and `..` finds a directory under it. -/
theorem enter_plain_ok (hhere : name ≠ ".") (hup : name ≠ "..") :
    disk.enter here name = .ok there ↔
      name.utf8ByteSize ≤ greatestName ∧ disk.at? (here ++ [name]) = some .directory ∧
        there = here ++ [name] := by
  unfold enter
  rw [if_neg hhere, if_neg hup]
  by_cases hlong : greatestName < name.utf8ByteSize
  · rw [if_pos hlong]
    simp [Nat.not_le.mpr hlong]
  · rw [if_neg hlong]
    cases disk.at? (here ++ [name]) with
    | none => simp
    | some entry =>
      cases entry with
      | file content => simp
      | directory => simp [Nat.not_lt.mp hlong, eq_comm]

/-- Entering a name finds nothing only where nothing stands under it. -/
theorem enter_notFound (h : disk.enter here name = .error .notFound) :
    name ≠ "." ∧ name ≠ ".." ∧ name.utf8ByteSize ≤ greatestName ∧
      disk.at? (here ++ [name]) = none := by
  unfold enter at h
  split at h
  next => cases h
  next hne =>
    split at h
    next => cases h
    next hup =>
      split at h
      next => cases h
      next hshort =>
        split at h
        next hat => exact ⟨hne, hup, Nat.not_lt.mp hshort, hat⟩
        next => cases h
        next => cases h

theorem enter_mono (hkeep : KeepsDirectories disk next) (h : disk.enter here name = .ok there) :
    next.enter here name = .ok there := by
  by_cases hhere : name = "."
  · subst hhere
    exact h
  by_cases hup : name = ".."
  · subst hup
    exact h
  rw [enter_plain_ok hhere hup] at h ⊢
  exact ⟨h.1, hkeep.directory _ h.2.1, h.2.2⟩

theorem enterAll_mono (hkeep : KeepsDirectories disk next) :
    ∀ {names : List String} {here there : Location},
      disk.enterAll here names = .ok there → next.enterAll here names = .ok there := by
  intro names
  induction names with
  | nil => intro here there h; exact h
  | cons name names ih =>
    intro here there h
    rw [enterAll] at h ⊢
    cases he : disk.enter here name with
    | error reason => rw [he] at h; cases h
    | ok mid =>
      rw [he] at h
      rw [enter_mono hkeep he]
      exact ih h

theorem enterAll_append (disk : Disk) (more : List String) :
    ∀ (names : List String) (here : Location),
      disk.enterAll here (names ++ more) =
        match disk.enterAll here names with
        | .ok there => disk.enterAll there more
        | .error reason => .error reason := by
  intro names
  induction names with
  | nil => intro here; rfl
  | cons name names ih =>
    intro here
    rw [List.cons_append, enterAll, enterAll]
    cases disk.enter here name with
    | error reason => rfl
    | ok mid => exact ih mid

/-- Names `.` lead nowhere else. -/
theorem enterAll_dots {names : List String} (h : ∀ name ∈ names, name = ".") :
    disk.enterAll here names = .ok here := by
  induction names with
  | nil => rfl
  | cons name names ih =>
    obtain rfl := h name (List.mem_cons_self ..)
    rw [enterAll, enter_here]
    exact ih fun name hname => h name (List.mem_cons_of_mem _ hname)

/-- All beginnings of a list of names that can be entered can be entered. -/
theorem enterAll_front {front names : List String} (hfront : front <+: names)
    (h : disk.enterAll here names = .ok there) :
    ∃ mid, disk.enterAll here front = .ok mid := by
  obtain ⟨more, rfl⟩ := hfront
  rw [enterAll_append] at h
  cases hf : disk.enterAll here front with
  | error reason => rw [hf] at h; cases h
  | ok mid => exact ⟨mid, rfl⟩

theorem follow_mono {path : String} (hkeep : KeepsDirectories disk next)
    (h : disk.follow path = .ok here) : next.follow path = .ok here := by
  have hstart : next.startOf path = disk.startOf path := by
    simp only [startOf, hkeep.working]
  rw [follow, hstart]
  exact enterAll_mono hkeep h

/-! ## Names in a directory -/

/-- Whether a system takes the path of a name in a directory: the name and the whole path are short
enough, and no character is one that paths cannot hold. -/
structure Takes (base name : String) : Prop where
  usable : unusable? (Path.join base name) = none
  short : name.utf8ByteSize ≤ greatestName

theorem unusable?_eq_none {path : String} :
    unusable? path = none ↔
      '\x00' ∉ path.toList ∧ path ≠ "" ∧ path.utf8ByteSize < pathLimit := by
  have hnul : path.toList.contains '\x00' = true ↔ '\x00' ∈ path.toList := List.contains_iff_mem
  unfold unusable?
  split
  next h => simp [hnul.mp h]
  next h =>
    have hmem := mt hnul.mpr h
    split
    next hempty =>
      have he : path = "" := by simpa using hempty
      simp [he]
    next hempty =>
      have hne : path ≠ "" := by simpa using hempty
      split
      next hlong => simp [Nat.not_lt.mpr hlong]
      next hlong => simp [hmem, hne, Nat.not_le.mp hlong]

theorem Takes.base_usable (h : IsPlain name) (ht : Takes base name) :
    base = "" ∨ unusable? base = none := by
  obtain ⟨hnul, -, hshort⟩ := unusable?_eq_none.mp ht.usable
  rw [h.join_eq] at hnul hshort
  by_cases hempty : base = ""
  · exact Or.inl hempty
  · refine Or.inr (unusable?_eq_none.mpr ⟨fun hm => hnul (by simp [hm]), hempty, ?_⟩)
    rw [String.utf8ByteSize_append, String.utf8ByteSize_append] at hshort
    omega

/-- A system that takes a name takes every shorter one of the same characters. -/
theorem Takes.of_shorter (h : IsPlain name) (h' : IsPlain other) (ht : Takes base other)
    (hchars : ∀ c ∈ name.toList, c ∈ other.toList) (hsize : name.utf8ByteSize ≤ other.utf8ByteSize) :
    Takes base name := by
  obtain ⟨hnul, -, hshort⟩ := unusable?_eq_none.mp ht.usable
  rw [h'.join_eq] at hnul hshort
  refine ⟨unusable?_eq_none.mpr ?_, Nat.le_trans hsize ht.short⟩
  rw [h.join_eq]
  refine ⟨fun hm => hnul ?_, fun e => h.ne_empty ?_, ?_⟩
  · simp only [String.toList_append, List.mem_append] at hm ⊢
    exact hm.imp_right (hchars _)
  · simpa using (String.append_eq_empty_iff.mp e).2
  · rw [String.utf8ByteSize_append, String.utf8ByteSize_append] at hshort ⊢
    omega

theorem destination?_join (h : IsPlain name) (disk : Disk) (base : String) :
    disk.destination? (Path.join base name) =
      match unusable? (Path.join base name) with
      | some reason => .error reason
      | none =>
        match disk.follow base with
        | .error reason => .error reason
        | .ok here =>
          if greatestName < name.utf8ByteSize then .error .tooLong else .ok (.name here name) := by
  rw [destination?, pathNames_join h, startOf_join h]
  simp only [List.getLast?_concat, List.dropLast_concat, if_neg h.ne_here, if_neg h.ne_up]
  rfl

/-- A path of a plain name leads to this name in the place that the rest leads to. -/
theorem destination?_join_ok (h : IsPlain name) {destination : Destination}
    (hd : disk.destination? (Path.join base name) = .ok destination) :
    Takes base name ∧ ∃ here, disk.follow base = .ok here ∧ destination = .name here name := by
  rw [destination?_join h] at hd
  cases hu : unusable? (Path.join base name) with
  | some reason => rw [hu] at hd; cases hd
  | none =>
    cases hf : disk.follow base with
    | error reason => rw [hu, hf] at hd; cases hd
    | ok here =>
      rw [hu, hf] at hd
      by_cases hlong : greatestName < name.utf8ByteSize
      · simp [hlong] at hd
      · simp only [if_neg hlong, Except.ok.injEq] at hd
        exact ⟨⟨hu, Nat.not_lt.mp hlong⟩, here, rfl, hd.symm⟩

theorem destination?_join_of_follow (h : IsPlain name) (ht : Takes base name)
    (hf : disk.follow base = .ok here) :
    disk.destination? (Path.join base name) = .ok (.name here name) := by
  rw [destination?_join h, ht.usable, hf]
  simp [Nat.not_lt.mpr ht.short]

/-- What the path of a plain name in a directory finds. -/
theorem find?_join_of_follow (h : IsPlain name) (ht : Takes base name)
    (hf : disk.follow base = .ok here) :
    disk.find? (Path.join base name) =
      match disk.at? (here ++ [name]) with
      | none => .error .notFound
      | some entry => .ok (here ++ [name], entry) := by
  simp only [find?, destination?_join_of_follow h ht hf]
  cases disk.at? (here ++ [name]) with
  | none => rfl
  | some entry =>
    cases entry with
    | directory => rfl
    | file content => simp [endsInSlash_join h]

theorem find?_join_ok (h : IsPlain name) {location : Location} {entry : Entry}
    (hd : disk.find? (Path.join base name) = .ok (location, entry)) :
    Takes base name ∧ ∃ here, disk.follow base = .ok here ∧ location = here ++ [name] ∧
      disk.at? location = some entry := by
  cases hdest : disk.destination? (Path.join base name) with
  | error reason => simp [find?, hdest] at hd
  | ok destination =>
    obtain ⟨ht, here, hf, -⟩ := destination?_join_ok h hdest
    rw [find?_join_of_follow h ht hf] at hd
    cases hat : disk.at? (here ++ [name]) with
    | none => rw [hat] at hd; cases hd
    | some found =>
      rw [hat] at hd
      injection hd with hd
      injection hd with hlocation hentry
      exact ⟨ht, here, hf, hlocation.symm, by rw [← hlocation, hat, hentry]⟩

/-! ## What stands at a path -/

/-- What a path leads to, and what stands below it, by the names that lead there from it; nothing
if the path leads nowhere. -/
def standing (disk : Disk) (path : String) (below : Location) : Option Entry :=
  match disk.find? path with
  | .ok (location, _) => disk.at? (location ++ below)
  | .error _ => none

theorem standing_join (h : IsPlain name) (ht : Takes base name)
    (hf : disk.follow base = .ok here) (below : Location) :
    disk.standing (Path.join base name) below =
      if (disk.at? (here ++ [name])).isSome then disk.at? (here ++ name :: below) else none := by
  rw [standing, find?_join_of_follow h ht hf]
  cases disk.at? (here ++ [name]) with
  | none => rfl
  | some entry => simp

/-- Nothing stands under a name that no system takes. -/
theorem standing_join_of_not_takes (h : IsPlain name) (ht : ¬Takes base name)
    (disk : Disk) : disk.standing (Path.join base name) = fun _ => none := by
  funext below
  rw [standing]
  cases hd : disk.find? (Path.join base name) with
  | error reason => rfl
  | ok found =>
    obtain ⟨location, entry⟩ := found
    exact absurd (find?_join_ok h hd).1 ht

/-- Nothing stands under a name in a place that cannot be reached. -/
theorem standing_join_of_error (h : IsPlain name) {reason : DiskError}
    (hf : disk.follow base = .error reason) :
    disk.standing (Path.join base name) = fun _ => none := by
  funext below
  rw [standing]
  cases hd : disk.find? (Path.join base name) with
  | error reason => rfl
  | ok found =>
    obtain ⟨location, entry⟩ := found
    obtain ⟨-, here, hok, -⟩ := find?_join_ok h hd
    rw [hf] at hok
    cases hok

/-- Two disks on which a directory is the same place hold the same under a name in it if they hold
the same at the name's location and below. -/
theorem standing_join_congr (h : IsPlain name) (hf : disk.follow base = .ok here)
    (hf' : next.follow base = .ok here)
    (hat : ∀ below, next.at? (here ++ name :: below) = disk.at? (here ++ name :: below)) :
    next.standing (Path.join base name) = disk.standing (Path.join base name) := by
  by_cases ht : Takes base name
  · funext below
    rw [standing_join h ht hf, standing_join h ht hf', hat below, hat []]
  · rw [standing_join_of_not_takes h ht, standing_join_of_not_takes h ht]

end FileLore.Disk
