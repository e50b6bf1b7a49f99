import FileLore.Disk.Operation

/-!
# Tasks on files

A task is what a program does with files, one operation after the other, each of
which may depend on the answers to those before it. A task can be run to its end
on a disk, or taken apart step by step, so that what is on the disk between two
steps can be spoken of, as well as what other tasks do in between.
-/

namespace FileLore

/-- A computation that works on files step by step and yields a value. -/
inductive FileTask (α : Type) where
  /-- Nothing is left to do. -/
  | done (value : α)
  /-- The next operation, and what to do with its answer. -/
  | perform (operation : Operation) (next : Except DiskError operation.Answer → FileTask α)

namespace FileTask

variable {α β : Type}

/-- One task and then another that depends on its value. -/
def andThen : FileTask α → (α → FileTask β) → FileTask β
  | done value, next => next value
  | perform operation rest, next => perform operation fun answer => (rest answer).andThen next

instance : Monad FileTask where
  pure := done
  bind := andThen

/-- The task of a single operation. -/
def request (operation : Operation) : FileTask (Except DiskError operation.Answer) :=
  perform operation done

/-- Runs a task to its end: its value, and the disk after it. -/
def run : FileTask α → Disk → α × Disk
  | done value, disk => (value, disk)
  | perform operation next, disk =>
    let (answer, disk) := disk.perform operation
    (next answer).run disk

/-- A task with nothing to do leaves the disk as it is. -/
@[simp] theorem run_done (value : α) (disk : Disk) : (done value).run disk = (value, disk) :=
  rfl

@[simp] theorem run_pure (value : α) (disk : Disk) :
    (pure value : FileTask α).run disk = (value, disk) :=
  rfl

/-- The task of a single operation yields its answer. -/
@[simp] theorem run_request (operation : Operation) (disk : Disk) :
    (request operation).run disk = disk.perform operation :=
  rfl

/-- Running a task carries out its first operation and then runs what is left. -/
theorem run_perform (operation : Operation)
    (next : Except DiskError operation.Answer → FileTask α) (disk : Disk) :
    (perform operation next).run disk =
      (next (disk.perform operation).1).run (disk.perform operation).2 :=
  rfl

/-- Running one task and then another runs the first and the second on what it leaves. -/
theorem run_bind (task : FileTask α) (next : α → FileTask β) (disk : Disk) :
    (task >>= next).run disk = (next (task.run disk).1).run (task.run disk).2 := by
  induction task generalizing disk with
  | done value => rfl
  | perform operation rest ih => exact ih (disk.perform operation).1 (disk.perform operation).2

/-- Reads a file as text. -/
def readText (path : String) : FileTask (Except DiskError String) :=
  perform (.readFile path) fun
    | .error reason => done (.error reason)
    | .ok content =>
      match String.fromUTF8? content with
      | some text => done (.ok text)
      | none => done (.error .invalidText)

end FileTask

end FileLore
