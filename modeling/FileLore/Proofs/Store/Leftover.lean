import FileLore.Proofs.Store.Step

/-!
# What is left of a temporary file

A store that succeeds leaves no temporary file, because moving the file takes it away.
Of the stores that fail, those that cannot move the file remove it, and those that
cannot begin it have none to remove. What nobody sees to is a file that could be begun
but not be written to its end, as on a device without space: what has been written of
the text stays behind (`store_leaves_iff`).

Storing comes to its end in one of six ways (`Ending`), which are told apart by the
operation that failed; what is left of the temporary file is read off them one by one.
There is one more thing that can stand in its place: a root that leads through a
missing directory and back by a name `..` may bring something to light, once that
directory has been made, that has stood there all the time. In a straight root of a
tree there is nothing of this kind.
-/

namespace FileLore.Cache

open Disk

variable {cache : Cache} {category : Namespace} {path payload : String} {disk next last : Disk}
  {log : List Operation} {value : Except Error String} {reason : Error}

/-! ## Endings -/

/-- The operation that writes the temporary file. -/
def writing (cache : Cache) (category : Namespace) (path payload : String) : Operation :=
  .writeFile (cache.temporaryPath category path) payload.toUTF8

/-- The operation that removes the temporary file. -/
def removing (cache : Cache) (category : Namespace) (path : String) : Operation :=
  .removeFile (cache.temporaryPath category path)

/-- The ways in which storing comes to its end: which operations have succeeded, what storing
yields, and how the disk comes about. -/
inductive Ending (cache : Cache) (category : Namespace) (path payload : String) (disk : Disk) :
    List Operation → Except Error String → Disk → Prop where
  /-- The root cannot be made. -/
  | unmade {cause : DiskError} {last : Disk} (hmade : Made (Path.ancestors cache.root) disk last) :
    Ending cache category path payload disk [] (.error (.io cache.root cause)) last
  /-- The temporary file cannot be begun. -/
  | unbegun {cause : DiskError} {last : Disk} (hmade : Made (Path.ancestors cache.root) disk last) :
    Ending cache category path payload disk [.createDirectories cache.root]
      (.error (.io (cache.temporaryPath category path) cause)) last
  /-- The temporary file cannot be written to its end. -/
  | broken {cause : DiskError} {mid last : Disk} {part rest : ByteArray}
    (hmade : Made (Path.ancestors cache.root) disk mid) (hpart : part ++ rest = payload.toUTF8)
    (hwrite : mid.changeFile (cache.temporaryPath category path) (fun _ => part) = .ok last) :
    Ending cache category path payload disk [.createDirectories cache.root]
      (.error (.io (cache.temporaryPath category path) cause)) last
  /-- The temporary file is moved into place. -/
  | stored {mid written last : Disk} (hmade : Made (Path.ancestors cache.root) disk mid)
    (hwrite : mid.changeFile (cache.temporaryPath category path) (fun _ => payload.toUTF8) =
      .ok written)
    (hmove : written.moveFile (cache.temporaryPath category path)
      (cache.artifactPath category path) = .ok last) :
    Ending cache category path payload disk
      [.createDirectories cache.root, cache.writing category path payload,
        cache.placing category path] (.ok (cache.artifactPath category path)) last
  /-- The temporary file cannot be moved and is removed. -/
  | removed {cause : DiskError} {mid written last : Disk}
    (hmade : Made (Path.ancestors cache.root) disk mid)
    (hwrite : mid.changeFile (cache.temporaryPath category path) (fun _ => payload.toUTF8) =
      .ok written)
    (hremove : written.deleteFile (cache.temporaryPath category path) = .ok last) :
    Ending cache category path payload disk
      [.createDirectories cache.root, cache.writing category path payload,
        cache.removing category path] (.error (.io (cache.artifactPath category path) cause)) last
  /-- The temporary file can be neither moved nor removed. -/
  | kept {cause : DiskError} {mid last : Disk}
    (hmade : Made (Path.ancestors cache.root) disk mid)
    (hwrite : mid.changeFile (cache.temporaryPath category path) (fun _ => payload.toUTF8) =
      .ok last) :
    Ending cache category path payload disk
      [.createDirectories cache.root, cache.writing category path payload]
      (.error (.io (cache.artifactPath category path) cause)) last

/-- The ways in which moving the temporary file comes to its end. -/
theorem moveTask_ends (h : (cache.moveTask category path).Ends disk log value last) :
    (log = [cache.placing category path] ∧ value = .ok (cache.artifactPath category path) ∧
        disk.moveFile (cache.temporaryPath category path) (cache.artifactPath category path) =
          .ok last) ∨
      ∃ cause, value = .error (.io (cache.artifactPath category path) cause) ∧
        ((log = [cache.removing category path] ∧
            disk.deleteFile (cache.temporaryPath category path) = .ok last) ∨
          (log = [] ∧ last = disk)) := by
  cases h with | @step _ _ _ mid _ moved _ _ first others =>
  rcases first.rename with ⟨rfl, hmove⟩ | ⟨⟨cause, rfl⟩, rfl⟩
  · cases others
    exact Or.inl ⟨rfl, rfl, hmove⟩
  · cases others with | @step _ _ _ _ _ gone _ _ first others =>
    cases others
    refine Or.inr ⟨cause, rfl, ?_⟩
    cases gone with
    | ok _ => exact Or.inl ⟨rfl, first.removeFile_ok rfl⟩
    | error cause =>
      -- The removal is carried out on what is there, or it fails and leaves that alone.
      refine Or.inr ⟨rfl, ?_⟩
      exact first.removeFile_error rfl

/-- **Storing comes to its end in one of these ways.** -/
theorem ending_of_ends (h : (cache.store category path payload).Ends disk log value last) :
    cache.Ending category path payload disk log value last := by
  rw [store_eq] at h
  cases h with | @step _ _ _ mid _ created _ _ first others =>
  have hmade := first.createDirectories
  cases created with
  | error cause =>
    cases others
    exact .unmade hmade
  | ok _ =>
    cases others with | @step _ _ _ written _ wrote _ _ first others =>
    cases wrote with
    | error cause =>
      cases others
      rcases first.writeFile_error rfl with rfl | ⟨part, rest, hpart, hwrite⟩
      · exact .unbegun hmade
      · exact .broken hmade hpart hwrite
    | ok _ =>
      have hwrite := first.writeFile_ok rfl
      rcases moveTask_ends others with ⟨rfl, rfl, hmove⟩ | ⟨cause, rfl, ⟨rfl, hremove⟩ | ⟨rfl, rfl⟩⟩
      · exact .stored hmade hwrite hmove
      · exact .removed hmade hwrite hremove
      · exact .kept hmade hwrite

/-! ## The temporary file -/

/-- A temporary file that has been moved is gone. -/
theorem move_standing_temporary
    (h : disk.moveFile (cache.temporaryPath category path) (cache.artifactPath category path) =
      .ok next) : next.standing (cache.temporaryPath category path) [] = none := by
  have hplain := isPlain_temporaryName category path
  have hne := temporaryName_ne category category path path
  obtain ⟨-, -, here, content, hf, hat, hat', rfl⟩ :=
    moveFile_join_ok hplain (isPlain_artifactName category path) h
  have hfile : disk.at? (here ++ [temporaryName category path]) ≠ some .directory := by
    rw [hat]
    nofun
  rw [temporaryPath, standing_put_ne hplain (Ne.symm hne)
    (follow_mono (keepsDirectories_erase hfile) hf) (at?_erase_ne_directory hne hat'),
    standing_erase_self hplain hf hfile]

/-- A temporary file that has been removed is gone. -/
theorem remove_standing_temporary
    (h : disk.deleteFile (cache.temporaryPath category path) = .ok next) :
    next.standing (cache.temporaryPath category path) [] = none := by
  have hplain := isPlain_temporaryName category path
  obtain ⟨here, content, hf, hat, rfl⟩ := deleteFile_join_ok hplain h
  exact standing_erase_self hplain hf (by rw [hat]; nofun)

/-- Whether a temporary file that has been written has been moved or removed, as it is wherever a
file that is there can be removed. -/
def ClearedUp (cache : Cache) (category : Namespace) (path payload : String)
    (log : List Operation) : Prop :=
  cache.writing category path payload ∈ log →
    cache.placing category path ∈ log ∨ cache.removing category path ∈ log

/-- Whether storing fails because the temporary file can be begun, but not be written to its end:
the beginning of the text is what is left. -/
def BreaksOff (cache : Cache) (category : Namespace) (path payload : String) (disk : Disk)
    (reason : Error) (last : Disk) : Prop :=
  ∃ mid part rest cause, Made (Path.ancestors cache.root) disk mid ∧
    part ++ rest = payload.toUTF8 ∧
    mid.changeFile (cache.temporaryPath category path) (fun _ => part) = .ok last ∧
    reason = .io (cache.temporaryPath category path) cause

/-- Whether making directories of the root brings something to light in the place of the temporary
file, or leaves alone what is there. -/
def Uncovers (cache : Cache) (category : Namespace) (path : String) (disk last : Disk) : Prop :=
  Made (Path.ancestors cache.root) disk last ∧
    last.standing (cache.temporaryPath category path) [] ≠ none

/-- What is left after a store that has failed. -/
theorem Ending.leaves_iff (h : cache.Ending category path payload disk log (.error reason) last)
    (hclear : cache.ClearedUp category path payload log) :
    last.standing (cache.temporaryPath category path) [] ≠ none ↔
      cache.BreaksOff category path payload disk reason last ∨
        cache.Uncovers category path disk last := by
  refine ⟨fun hleft => ?_, ?_⟩
  · cases h with
    | unmade hmade => exact Or.inr ⟨hmade, hleft⟩
    | unbegun hmade => exact Or.inr ⟨hmade, hleft⟩
    | broken hmade hpart hwrite => exact Or.inl ⟨_, _, _, _, hmade, hpart, hwrite, rfl⟩
    | removed _ _ hremove => exact absurd (remove_standing_temporary hremove) hleft
    | kept _ _ =>
      -- The file has been written, but neither of the operations that clear it up has succeeded.
      have hwritten : cache.writing category path payload ∈
          [Operation.createDirectories cache.root, cache.writing category path payload] := by simp
      have hnot := hclear hwritten
      simp [writing, placing, removing] at hnot
  · rintro (⟨mid, part, rest, cause, -, -, hwrite, -⟩ | ⟨-, hleft⟩)
    · rw [write_standing_self hwrite]
      exact Option.some_ne_none _
    · exact hleft

/-- A write that fails half way ends the store, whatever it fails for. -/
theorem ends_of_broken {mid : Disk} {part rest : ByteArray} (cause : DiskError)
    (hmade : disk.makeDirectories cache.root = (.ok (), mid))
    (hpart : part ++ rest = payload.toUTF8)
    (hwrite : mid.changeFile (cache.temporaryPath category path) (fun _ => part) = .ok last) :
    (cache.store category path payload).Ends disk [.createDirectories cache.root]
      (.error (.io (cache.temporaryPath category path) cause)) last := by
  have hcreated : Attempt disk (.createDirectories cache.root) (.ok ()) mid := by
    have hcarried := @Attempt.carriedOut disk (.createDirectories cache.root)
    rwa [perform, hmade] at hcarried
  rw [store_eq]
  exact .step hcreated (.step (.failed cause (.written hpart hwrite)) (.done _ _))

/-- **What a store leaves of its temporary file.** One that succeeds leaves nothing. One that fails,
and removes the file if it cannot move it, leaves something in its place just if the file could be
begun but not be written to its end, or if something came to light there when directories of the
root were made; and the latter cannot be in a straight root of a tree if nothing could be found
there before. The former can be wherever the file can be written at all, with any beginning of the
text and for any cause. -/
theorem store_leaves_iff (cache : Cache) (category : Namespace) (path payload : String)
    (disk : Disk) :
    (∀ log target last, (cache.store category path payload).Ends disk log (.ok target) last →
      last.standing (cache.temporaryPath category path) [] = none) ∧
    (∀ log reason last, (cache.store category path payload).Ends disk log (.error reason) last →
      cache.ClearedUp category path payload log →
      (last.standing (cache.temporaryPath category path) [] ≠ none ↔
        cache.BreaksOff category path payload disk reason last ∨
          cache.Uncovers category path disk last)) ∧
    (disk.IsTree → disk.IsStraight cache.root →
      disk.standing (cache.temporaryPath category path) [] = none →
      ∀ last, ¬cache.Uncovers category path disk last) ∧
    ∀ mid part rest cause last, disk.makeDirectories cache.root = (.ok (), mid) →
      part ++ rest = payload.toUTF8 →
      mid.changeFile (cache.temporaryPath category path) (fun _ => part) = .ok last →
      ∃ log, (cache.store category path payload).Ends disk log
          (.error (.io (cache.temporaryPath category path) cause)) last ∧
        cache.ClearedUp category path payload log := by
  refine ⟨fun log target last h => ?_, fun log reason last h hclear => ?_,
    fun htree hstraight hbefore last h => ?_, fun mid part rest cause last hmade hpart hwrite => ?_⟩
  · cases ending_of_ends h with
    | stored _ _ hmove => exact move_standing_temporary hmove
  · exact (ending_of_ends h).leaves_iff hclear
  · have hsame := h.1.standing_of_straight htree hstraight (isPlain_temporaryName category path)
    exact h.2 ((congrFun hsame []).trans hbefore)
  · refine ⟨_, ends_of_broken cause hmade hpart hwrite, fun hwritten => ?_⟩
    simp [writing] at hwritten

/-- On a device that is full after one byte, this byte stays behind. -/
theorem store_leaves_iff_full :
    let root : Disk := ⟨[(["kb"], .directory)], []⟩
    root.standing "kb/.a_impact.json.tmp" [] = none ∧
      ∃ log last, ((Cache.mk "kb").store .impact "a" "12").Ends root log
          (.error (.io "kb/.a_impact.json.tmp" (.other "No space left on device (os error 28)")))
          last ∧
        ClearedUp ⟨"kb"⟩ .impact "a" "12" log ∧
        last.standing "kb/.a_impact.json.tmp" [] ≠ none := by
  intro root
  obtain ⟨-, hleaves, -, hbreaks⟩ := store_leaves_iff ⟨"kb"⟩ .impact "a" "12" root
  have hmade : root.makeDirectories "kb" = (.ok (), root) := rfl
  have hpart : "1".toUTF8 ++ "2".toUTF8 = "12".toUTF8 := rfl
  have hwrite : root.changeFile "kb/.a_impact.json.tmp" (fun _ => "1".toUTF8) =
    .ok (root.put ["kb", ".a_impact.json.tmp"] (.file "1".toUTF8)) := rfl
  obtain ⟨log, hends, hclear⟩ := hbreaks root _ _
    (.other "No space left on device (os error 28)") _ hmade hpart hwrite
  refine ⟨rfl, log, _, hends, hclear, (hleaves log _ _ hends hclear).mpr (Or.inl ?_)⟩
  exact ⟨root, _, _, _, Relation.ReflTransGen.refl, hpart, hwrite, rfl⟩

end FileLore.Cache
