import FileLore.Source.Reading
import Mathlib.Tactic.SplitIfs

/-!
# What is read of a source

Reading a source changes nothing on the disk and yields the text of the file, if
the file can be read. A source is empty just if the file is.
-/

namespace FileLore

/-- The source in a file; none if it cannot be read. -/
def sourceOn? (disk : Disk) (path : String) : Option String :=
  match disk.contentOf path with
  | .ok content => some (Text.lossyText content)
  | .error _ => none

theorem readSource_run (path : String) (disk : Disk) :
    (readSource path).run disk = (sourceOn? disk path, disk) := by
  rw [readSource, FileTask.run_perform, Disk.perform, sourceOn?]
  cases disk.contentOf path <;> rfl

theorem givenOrRead_run (path : String) (given : Option String) (disk : Disk) :
    (givenOrRead path given).run disk = (given <|> sourceOn? disk path, disk) := by
  cases given with
  | none => exact readSource_run path disk
  | some source => rfl

/-- The record of a file is made of its path and of its source, given or read. -/
theorem recordFile_run (path : String) (given : Option String) (disk : Disk) :
    (recordFile path given).run disk =
      (FileRecord.of path (given <|> sourceOn? disk path), disk) := by
  rw [recordFile, FileTask.run_bind, givenOrRead_run]
  rfl

namespace Text

/-- Reading bytes shows something of the last of them at least. -/
theorem lossyFrom_ne_nil (bytes : List UInt8) :
    ∀ open? : Option Unfinished, open?.isSome ∨ bytes ≠ [] → lossyFrom open? bytes ≠ [] := by
  induction bytes with
  | nil =>
    intro open? h
    rw [lossyFrom, if_pos (h.resolve_right fun hne => hne rfl)]
    nofun
  | cons byte rest ih =>
    intro open? _
    -- A character that this byte begins shows when it is completed, broken off, or at the end.
    have hbegun (begun : Unfinished) : lossyFrom (some begun) rest ≠ [] := ih _ (Or.inl rfl)
    cases open? with
    | none =>
      rw [lossyFrom]
      dsimp only
      split_ifs
      · nofun
      · split
        · exact hbegun _
        · nofun
    | some begun =>
      rw [lossyFrom]
      dsimp only
      split_ifs
      · nofun
      · exact hbegun _
      · nofun
      · split <;> nofun

theorem toList_loop_ne_nil (bytes : ByteArray) (place : Nat) (before : List UInt8)
    (h : place < bytes.size ∨ before ≠ []) : ByteArray.toList.loop bytes place before ≠ [] := by
  fun_induction ByteArray.toList.loop bytes place before with
  | case1 place before hplace ih => exact ih (Or.inr (List.cons_ne_nil _ _))
  | case2 place before hplace =>
    exact mt List.reverse_eq_nil_iff.mp (h.resolve_left hplace)

/-- The text of bytes is empty just if there are none. -/
theorem lossyText_eq_empty_iff {bytes : ByteArray} : lossyText bytes = "" ↔ bytes.size = 0 := by
  constructor
  · intro h
    by_cases hsize : bytes.size = 0
    · exact hsize
    rw [lossyText, String.fromUTF8?] at h
    split at h
    · next text htext =>
      split at htext
      · next hvalid =>
        injection htext with htext
        have hempty := String.toByteArray_eq_empty_iff.mpr (htext.trans h)
        exact ByteArray.size_eq_zero_iff.mpr hempty
      · cases htext
    · refine absurd (String.ofList_eq_empty_iff.mp h) (lossyFrom_ne_nil _ none (Or.inr ?_))
      exact toList_loop_ne_nil bytes 0 [] (Or.inl (Nat.pos_of_ne_zero hsize))
  · intro h
    rw [ByteArray.size_eq_zero_iff.mp h]
    rfl

end Text

end FileLore
