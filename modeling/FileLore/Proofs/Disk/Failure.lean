import FileLore.Disk.FileTask
import FileLore.Proofs.Disk.Directory

/-!
# Tasks that fail or stop half way

On a real system every operation can fail for reasons that the disk does not
show, such as a device that is full, and a program can be stopped between two
operations or in the middle of one. `CutShort` says what an operation may leave
behind in such a case: some of the directories that it should make, or a
beginning of the content that it should write. Moving and removing a file happen
at once or not at all.

A task `Ends` with a value and a disk if it comes to its end, each operation
having been carried out or having failed; it `Stops` at every disk that can be
found there if it is interrupted at any point. Both keep account of the
operations that succeeded, in their order. What holds of every value that a task
`Yields`, whatever it is answered, holds of the value that it ends with.
-/

namespace FileLore

namespace Disk

/-- What an operation that is not carried out may leave behind. -/
inductive CutShort (disk : Disk) : Operation → Disk → Prop where
  /-- The operation has not begun. -/
  | nothing (operation : Operation) : CutShort disk operation disk
  /-- Some of the directories have been made. -/
  | directories {path : String} {next : Disk} (h : Made (Path.ancestors path) disk next) :
    CutShort disk (.createDirectories path) next
  /-- The file holds a beginning of the content, maybe an empty one. -/
  | written {path : String} {part rest content : ByteArray} {next : Disk}
    (hpart : part ++ rest = content) (h : disk.changeFile path (fun _ => part) = .ok next) :
    CutShort disk (.writeFile path content) next
  /-- A beginning of the content has been added to the file. -/
  | appended {path : String} {part rest content : ByteArray} {next : Disk}
    (hpart : part ++ rest = content)
    (h : disk.changeFile path (fun old => old.getD ByteArray.empty ++ part) = .ok next) :
    CutShort disk (.appendFile path content) next

/-- What can come of an operation: it is carried out, or it fails for any reason and is cut short. -/
inductive Attempt (disk : Disk) (operation : Operation) :
    Except DiskError operation.Answer → Disk → Prop where
  | carriedOut : Attempt disk operation (disk.perform operation).1 (disk.perform operation).2
  | failed (reason : DiskError) {next : Disk} (h : CutShort disk operation next) :
    Attempt disk operation (.error reason) next

variable {disk next : Disk} {path target : String}

/-- What can come of an operation that yields nothing else: it is carried out, or it fails. -/
theorem settle_cases (disk : Disk) (result : Except DiskError Disk) :
    (∃ next, result = .ok next ∧ disk.settle result = (.ok (), next)) ∨
      ∃ reason, result = .error reason ∧ disk.settle result = (.error reason, disk) := by
  cases result with
  | ok next => exact Or.inl ⟨next, rfl, rfl⟩
  | error reason => exact Or.inr ⟨reason, rfl, rfl⟩

theorem CutShort.createDirectories (h : CutShort disk (.createDirectories path) next) :
    Made (Path.ancestors path) disk next := by
  cases h with
  | nothing => exact Relation.ReflTransGen.refl
  | directories h => exact h

theorem Attempt.createDirectories
    {answer : Except DiskError (Operation.createDirectories path).Answer}
    (h : Attempt disk (Operation.createDirectories path) answer next) :
    Made (Path.ancestors path) disk next := by
  cases h with
  | carriedOut => exact makeDirectories_made disk path
  | failed reason h => exact h.createDirectories

theorem CutShort.writeFile {content : ByteArray} (h : CutShort disk (.writeFile path content) next) :
    next = disk ∨ ∃ part, disk.changeFile path (fun _ => part) = .ok next := by
  cases h with
  | nothing => exact Or.inl rfl
  | written hpart h => exact Or.inr ⟨_, h⟩

theorem Attempt.writeFile {content : ByteArray}
    {answer : Except DiskError (Operation.writeFile path content).Answer}
    (h : Attempt disk (Operation.writeFile path content) answer next) :
    next = disk ∨ ∃ part, disk.changeFile path (fun _ => part) = .ok next := by
  cases h with
  | carriedOut =>
    rcases settle_cases disk (disk.changeFile path fun _ => content) with
      ⟨next, hok, hs⟩ | ⟨reason, -, hs⟩
    · exact Or.inr ⟨content, by rw [hok, perform, hs]⟩
    · exact Or.inl (by rw [perform, hs])
  | failed reason h => exact h.writeFile

/-- Writing a file succeeds only with the whole content. -/
theorem Attempt.writeFile_ok {content : ByteArray}
    {answer : Except DiskError (Operation.writeFile path content).Answer}
    (h : Attempt disk (Operation.writeFile path content) answer next) (hok : answer = .ok ()) :
    disk.changeFile path (fun _ => content) = .ok next := by
  cases h with
  | carriedOut =>
    rcases settle_cases disk (disk.changeFile path fun _ => content) with
      ⟨next, hnext, hs⟩ | ⟨reason, -, hs⟩
    · rw [hnext, perform, hs]
    · rw [perform, hs] at hok
      cases hok
  | failed reason h => cases hok

/-- Writing a file that fails leaves the disk as it was, or a beginning of the content. -/
theorem Attempt.writeFile_error {content : ByteArray} {reason : DiskError}
    {answer : Except DiskError (Operation.writeFile path content).Answer}
    (h : Attempt disk (Operation.writeFile path content) answer next)
    (herror : answer = .error reason) :
    next = disk ∨ ∃ part rest, part ++ rest = content ∧
      disk.changeFile path (fun _ => part) = .ok next := by
  cases h with
  | carriedOut =>
    rcases settle_cases disk (disk.changeFile path fun _ => content) with
      ⟨next, -, hs⟩ | ⟨reason, -, hs⟩
    · rw [perform, hs] at herror
      cases herror
    · exact Or.inl (by rw [perform, hs])
  | failed reason h =>
    cases h with
    | nothing => exact Or.inl rfl
    | written hpart hchange => exact Or.inr ⟨_, _, hpart, hchange⟩

/-- Moving a file happens or fails, with nothing in between. -/
theorem Attempt.rename {answer : Except DiskError (Operation.rename path target).Answer}
    (h : Attempt disk (Operation.rename path target) answer next) :
    (answer = .ok () ∧ disk.moveFile path target = .ok next) ∨
      (∃ reason, answer = .error reason) ∧ next = disk := by
  cases h with
  | carriedOut =>
    rcases settle_cases disk (disk.moveFile path target) with ⟨next, hok, hs⟩ | ⟨reason, -, hs⟩
    · exact Or.inl ⟨congrArg Prod.fst hs, by rw [hok, perform, hs]⟩
    · exact Or.inr ⟨⟨reason, congrArg Prod.fst hs⟩, by rw [perform, hs]⟩
  | failed reason h =>
    cases h
    exact Or.inr ⟨⟨reason, rfl⟩, rfl⟩

theorem Attempt.removeFile {answer : Except DiskError (Operation.removeFile path).Answer}
    (h : Attempt disk (Operation.removeFile path) answer next) :
    disk.deleteFile path = .ok next ∨ next = disk := by
  cases h with
  | carriedOut =>
    rcases settle_cases disk (disk.deleteFile path) with ⟨next, hok, hs⟩ | ⟨reason, -, hs⟩
    · exact Or.inl (by rw [hok, perform, hs])
    · exact Or.inr (by rw [perform, hs])
  | failed reason h =>
    cases h
    exact Or.inr rfl

/-- Removing a file succeeds only if the file is gone. -/
theorem Attempt.removeFile_ok {answer : Except DiskError (Operation.removeFile path).Answer}
    (h : Attempt disk (Operation.removeFile path) answer next) (hok : answer = .ok ()) :
    disk.deleteFile path = .ok next := by
  cases h with
  | carriedOut =>
    rcases settle_cases disk (disk.deleteFile path) with ⟨next, hnext, hs⟩ | ⟨reason, -, hs⟩
    · rw [hnext, perform, hs]
    · rw [perform, hs] at hok
      cases hok
  | failed reason h => cases hok

/-- Removing a file that fails leaves the disk as it was. -/
theorem Attempt.removeFile_error {reason : DiskError}
    {answer : Except DiskError (Operation.removeFile path).Answer}
    (h : Attempt disk (Operation.removeFile path) answer next) (herror : answer = .error reason) :
    next = disk := by
  cases h with
  | carriedOut =>
    rcases settle_cases disk (disk.deleteFile path) with ⟨next, -, hs⟩ | ⟨reason, -, hs⟩
    · rw [perform, hs] at herror
      cases herror
    · rw [perform, hs]
  | failed reason h =>
    cases h
    rfl

end Disk

namespace FileTask

open Disk (CutShort Attempt)

variable {α β : Type}

/-- The operation by itself if it succeeded, for an account of those that did. -/
def succeeded (operation : Operation) : Except DiskError operation.Answer → List Operation
  | .ok _ => [operation]
  | .error _ => []

/-- The values and disks with which a task can come to its end. -/
inductive Ends : FileTask α → Disk → List Operation → α → Disk → Prop where
  | done (value : α) (disk : Disk) : Ends (done value) disk [] value disk
  | step {operation : Operation} {next : Except DiskError operation.Answer → FileTask α}
    {disk mid last : Disk} {answer : Except DiskError operation.Answer} {log : List Operation}
    {value : α} (first : Attempt disk operation answer mid)
    (others : Ends (next answer) mid log value last) :
    Ends (perform operation next) disk (succeeded operation answer ++ log) value last

/-- The disks that can be found when a task is interrupted, or at its end. -/
inductive Stops : FileTask α → Disk → List Operation → Disk → Prop where
  | done (value : α) (disk : Disk) : Stops (done value) disk [] disk
  | within {operation : Operation} {next : Except DiskError operation.Answer → FileTask α}
    {disk last : Disk} (h : CutShort disk operation last) :
    Stops (perform operation next) disk [] last
  | step {operation : Operation} {next : Except DiskError operation.Answer → FileTask α}
    {disk mid last : Disk} {answer : Except DiskError operation.Answer} {log : List Operation}
    (first : Attempt disk operation answer mid) (others : Stops (next answer) mid log last) :
    Stops (perform operation next) disk (succeeded operation answer ++ log) last

/-- A task that meets no failure but those that the disk shows ends as when it is run. -/
theorem ends_run (task : FileTask α) (disk : Disk) :
    ∃ log, Ends task disk log (task.run disk).1 (task.run disk).2 := by
  induction task generalizing disk with
  | done value => exact ⟨[], Ends.done value disk⟩
  | perform operation next ih =>
    obtain ⟨log, h⟩ := ih (disk.perform operation).1 (disk.perform operation).2
    exact ⟨_, Ends.step Attempt.carriedOut h⟩

theorem Ends.stops {task : FileTask α} {disk last : Disk} {log : List Operation} {value : α}
    (h : Ends task disk log value last) : Stops task disk log last := by
  induction h with
  | done value disk => exact Stops.done value disk
  | step first _ ih => exact Stops.step first ih

/-- One task and then another end by the end of the first and then the end of the second. -/
theorem Ends.of_bind {task : FileTask α} {next : α → FileTask β} {value : β} {last : Disk} :
    ∀ {disk : Disk} {log : List Operation}, (task >>= next).Ends disk log value last →
      ∃ first mid before after, task.Ends disk before first mid ∧
        (next first).Ends mid after value last ∧ log = before ++ after := by
  induction task with
  | done first =>
    intro disk log h
    exact ⟨first, disk, [], log, Ends.done first disk, h, rfl⟩
  | perform operation rest ih =>
    intro disk log h
    cases h with
    | step attempt others =>
      obtain ⟨first, mid, before, after, hfirst, hnext, rfl⟩ := ih _ others
      exact ⟨first, mid, _, after, Ends.step attempt hfirst, hnext, by rw [List.append_assoc]⟩

/-! ## Values -/

variable {holds : α → Prop}

/-- Whether a task yields only values for which something holds, whatever the answers to its
operations are. -/
def Yields (holds : α → Prop) : FileTask α → Prop
  | done value => holds value
  | perform _ next => ∀ answer, (next answer).Yields holds

theorem Yields.of_bind {task : FileTask β} {next : β → FileTask α}
    (h : ∀ value, (next value).Yields holds) : (task >>= next).Yields holds := by
  induction task with
  | done value => exact h value
  | perform operation rest ih => exact ih

theorem Yields.bind {task : FileTask β} {next : β → FileTask α} {before : β → Prop}
    (h : task.Yields before) (hnext : ∀ value, before value → (next value).Yields holds) :
    (task >>= next).Yields holds := by
  induction task with
  | done value => exact hnext value h
  | perform operation rest ih => exact fun answer => ih answer (h answer)

theorem Yields.ends {task : FileTask α} (h : task.Yields holds) {disk last : Disk}
    {log : List Operation} {value : α} (hends : task.Ends disk log value last) : holds value := by
  induction hends with
  | done value disk => exact h
  | step first others ih => exact ih (h _)

end FileTask

end FileLore
