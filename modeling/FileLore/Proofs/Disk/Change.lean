import FileLore.Proofs.Disk.Follow

/-!
# What operations change

For each operation on files, the one place at which it can change a disk and what
it leaves there, when its path is a plain name joined to the path of a
directory: `changeFile_join_ok`, `moveFile_join_ok`, `deleteFile_join_ok`. None of
them takes a directory away, so the place that the directory's path leads to
stays the same, and so does what stands under every other name in it
(`standing_put_ne`, `standing_erase_ne`).
-/

namespace FileLore.Disk

variable {disk next : Disk} {here : Location} {base name other : String}

/-! ## The places at which operations act -/

theorem changeFile_join (h : IsPlain name) (ht : Takes base name)
    (hf : disk.follow base = .ok here) (content : Option ByteArray → ByteArray) :
    disk.changeFile (Path.join base name) content =
      match disk.at? (here ++ [name]) with
      | some .directory => .error .isDirectory
      | some (.file old) => .ok (disk.put (here ++ [name]) (.file (content (some old))))
      | none =>
        if disk.isDirectory here then .ok (disk.put (here ++ [name]) (.file (content none)))
        else .error .notFound := by
  simp only [changeFile, destination?_join_of_follow h ht hf, endsInSlash_join h]
  cases disk.at? (here ++ [name]) with
  | none => rfl
  | some entry => cases entry <;> rfl

/-- What a file that is written under a name in a directory changes. -/
theorem changeFile_join_ok (h : IsPlain name) {content : Option ByteArray → ByteArray}
    (hc : disk.changeFile (Path.join base name) content = .ok next) :
    Takes base name ∧ ∃ here old, disk.follow base = .ok here ∧
      disk.at? (here ++ [name]) ≠ some .directory ∧
      next = disk.put (here ++ [name]) (.file (content old)) := by
  cases hd : disk.destination? (Path.join base name) with
  | error reason => simp [changeFile, hd] at hc
  | ok destination =>
    obtain ⟨ht, here, hf, -⟩ := destination?_join_ok h hd
    rw [changeFile_join h ht hf] at hc
    refine ⟨ht, here, ?_⟩
    cases hat : disk.at? (here ++ [name]) with
    | none =>
      simp only [hat] at hc
      split at hc
      next =>
        injection hc with hc
        exact ⟨none, hf, by simp, hc.symm⟩
      next => cases hc
    | some entry =>
      cases entry with
      | directory => simp [hat] at hc
      | file old =>
        simp only [hat, Except.ok.injEq] at hc
        exact ⟨some old, hf, by simp, hc.symm⟩

theorem moveFile_join (h : IsPlain name) (h' : IsPlain other) (ht : Takes base name)
    (ht' : Takes base other) (hf : disk.follow base = .ok here) {content : ByteArray}
    (hat : disk.at? (here ++ [name]) = some (.file content)) :
    disk.moveFile (Path.join base name) (Path.join base other) =
      match disk.at? (here ++ [other]) with
      | some .directory => .error .isDirectory
      | _ =>
        if disk.isDirectory here then
          .ok ((disk.erase (here ++ [name])).put (here ++ [other]) (.file content))
        else .error .notFound := by
  simp only [moveFile, find?_join_of_follow h ht hf, hat, destination?_join_of_follow h' ht' hf,
    endsInSlash_join h']
  cases disk.at? (here ++ [other]) with
  | none => rfl
  | some entry => cases entry <;> rfl

/-- What a file that is moved within a directory changes. -/
theorem moveFile_join_ok (h : IsPlain name) (h' : IsPlain other)
    (hm : disk.moveFile (Path.join base name) (Path.join base other) = .ok next) :
    Takes base name ∧ Takes base other ∧ ∃ here content, disk.follow base = .ok here ∧
      disk.at? (here ++ [name]) = some (.file content) ∧
      disk.at? (here ++ [other]) ≠ some .directory ∧
      next = (disk.erase (here ++ [name])).put (here ++ [other]) (.file content) := by
  cases hs : disk.find? (Path.join base name) with
  | error reason => simp [moveFile, hs] at hm
  | ok found =>
    obtain ⟨location, entry⟩ := found
    obtain ⟨ht, here, hf, rfl, hat⟩ := find?_join_ok h hs
    cases entry with
    | directory => simp [moveFile, hs] at hm
    | file content =>
      cases hd : disk.destination? (Path.join base other) with
      | error reason => simp [moveFile, hs, hd] at hm
      | ok destination =>
        obtain ⟨ht', -⟩ := destination?_join_ok h' hd
        rw [moveFile_join h h' ht ht' hf hat] at hm
        refine ⟨ht, ht', here, content, hf, hat, ?_⟩
        split at hm
        next => cases hm
        next hnot =>
          split at hm
          next =>
            injection hm with hm
            exact ⟨hnot, hm.symm⟩
          next => cases hm

/-- What a file that is removed from a directory changes. -/
theorem deleteFile_join_ok (h : IsPlain name)
    (hd : disk.deleteFile (Path.join base name) = .ok next) :
    ∃ here content, disk.follow base = .ok here ∧
      disk.at? (here ++ [name]) = some (.file content) ∧
      next = disk.erase (here ++ [name]) := by
  cases hs : disk.find? (Path.join base name) with
  | error reason => simp [deleteFile, hs] at hd
  | ok found =>
    obtain ⟨location, entry⟩ := found
    obtain ⟨-, here, hf, rfl, hat⟩ := find?_join_ok h hs
    cases entry with
    | directory => simp [deleteFile, hs] at hd
    | file content =>
      simp only [deleteFile, hs, Except.ok.injEq] at hd
      exact ⟨here, content, hf, hat, hd.symm⟩

/-! ## The rest of the directory -/

theorem append_cons_ne (hne : other ≠ name) (here below : Location) :
    here ++ other :: below ≠ here ++ [name] := by
  intro h
  have := List.append_cancel_left h
  exact hne (List.cons.inj this).1

theorem at?_erase_ne_directory (hne : other ≠ name)
    (h : disk.at? (here ++ [other]) ≠ some .directory) :
    (disk.erase (here ++ [name])).at? (here ++ [other]) ≠ some .directory := by
  rw [at?_erase_ne (append_cons_ne hne here [])]
  exact h

theorem keepsDirectories_move (hne : other ≠ name)
    (hfile : disk.at? (here ++ [name]) ≠ some .directory)
    (hfree : disk.at? (here ++ [other]) ≠ some .directory) (entry : Entry) :
    KeepsDirectories disk ((disk.erase (here ++ [name])).put (here ++ [other]) entry) :=
  (keepsDirectories_erase hfile).trans
    (keepsDirectories_put (at?_erase_ne_directory hne hfree) entry)

/-- What is put under a name in a directory changes nothing under the other names. -/
theorem standing_put_ne (h : IsPlain other) (hne : other ≠ name)
    (hf : disk.follow base = .ok here) (hat : disk.at? (here ++ [name]) ≠ some .directory)
    (entry : Entry) :
    (disk.put (here ++ [name]) entry).standing (Path.join base other) =
      disk.standing (Path.join base other) :=
  standing_join_congr h hf (follow_mono (keepsDirectories_put hat entry) hf) fun below =>
    at?_put_ne (append_cons_ne hne here below) disk entry

theorem standing_erase_ne (h : IsPlain other) (hne : other ≠ name)
    (hf : disk.follow base = .ok here) (hat : disk.at? (here ++ [name]) ≠ some .directory) :
    (disk.erase (here ++ [name])).standing (Path.join base other) =
      disk.standing (Path.join base other) :=
  standing_join_congr h hf (follow_mono (keepsDirectories_erase hat) hf) fun below =>
    at?_erase_ne (append_cons_ne hne here below) disk

theorem standing_put_self (h : IsPlain name) (ht : Takes base name)
    (hf : disk.follow base = .ok here) (hat : disk.at? (here ++ [name]) ≠ some .directory)
    (entry : Entry) :
    (disk.put (here ++ [name]) entry).standing (Path.join base name) [] = some entry := by
  have hself := at?_put_self (ne_root_of_at?_ne hat) disk entry
  rw [standing_join h ht (follow_mono (keepsDirectories_put hat entry) hf), hself]
  rfl

/-- Nothing stands under a name after it has been erased. -/
theorem standing_erase_self (h : IsPlain name) (hf : disk.follow base = .ok here)
    (hat : disk.at? (here ++ [name]) ≠ some .directory) :
    (disk.erase (here ++ [name])).standing (Path.join base name) [] = none := by
  by_cases ht : Takes base name
  · have hself := at?_erase_self (ne_root_of_at?_ne hat) disk
    rw [standing_join h ht (follow_mono (keepsDirectories_erase hat) hf), hself]
    rfl
  · rw [standing_join_of_not_takes h ht]

theorem contentOf_join (h : IsPlain name) (ht : Takes base name)
    (hf : disk.follow base = .ok here) :
    disk.contentOf (Path.join base name) =
      match disk.at? (here ++ [name]) with
      | none => .error .notFound
      | some .directory => .error .isDirectory
      | some (.file content) => .ok content := by
  rw [contentOf, find?_join_of_follow h ht hf]
  cases disk.at? (here ++ [name]) with
  | none => rfl
  | some entry => cases entry <;> rfl

theorem contentOf_join_of_error (h : IsPlain name) (ht : Takes base name) {reason : DiskError}
    (hf : disk.follow base = .error reason) :
    disk.contentOf (Path.join base name) = .error reason := by
  rw [contentOf, find?, destination?_join h, ht.usable, hf]

/-- The content of a file in a directory can be read just if the file stands there. -/
theorem contentOf_join_iff (h : IsPlain name) {content : ByteArray} :
    disk.contentOf (Path.join base name) = .ok content ↔
      disk.standing (Path.join base name) [] = some (.file content) := by
  by_cases ht : Takes base name
  · cases hf : disk.follow base with
    | error reason =>
      rw [contentOf_join_of_error h ht hf, standing_join_of_error h hf]
      simp
    | ok here =>
      rw [contentOf_join h ht hf, standing_join h ht hf]
      cases hat : disk.at? (here ++ [name]) with
      | none => simp
      | some entry => cases entry <;> simp
  · rw [standing_join_of_not_takes h ht]
    constructor
    · intro hread
      cases hd : disk.find? (Path.join base name) with
      | error reason => simp [contentOf, hd] at hread
      | ok found => exact absurd (find?_join_ok h hd).1 ht
    · nofun

end FileLore.Disk
