import FileLore.CommandLine.Run
import Std.Time.DateTime.Timestamp

/-!
# The program

The outer layer: it finds out what is around the program, carries out the
operations of its task on the real files, and prints the answer. Version control
and the network are not asked, so that a run finds no branches and no graph; what
it stores, reads and prints does not depend on them. Times are universal.
-/

namespace FileLore.Program

/-- The reason why an operation on real files failed. -/
def causeOf : IO.Error → DiskError
  | .noFileOrDirectory .. => .notFound
  | .alreadyExists .. => .alreadyExists
  | .inappropriateType .. => .isDirectory
  | other => .other other.toString

/-- Does something with real files. -/
def attempt {α : Type} (action : IO α) : IO (Except DiskError α) := do
  try
    return .ok (← action)
  catch reason =>
    return .error (causeOf reason)

/-- Carries out an operation on real files. -/
def answer : (operation : Operation) → IO (Except DiskError operation.Answer)
  | .createDirectories path => attempt (IO.FS.createDirAll path)
  | .writeFile path content => attempt (IO.FS.writeBinFile path content)
  | .appendFile path content =>
    attempt (IO.FS.withFile path .append fun file => file.write content)
  | .rename source target => attempt (IO.FS.rename source target)
  | .removeFile path => attempt (IO.FS.removeFile path)
  | .readFile path => attempt (IO.FS.readBinFile path)

/-- Carries out a task on real files. -/
def carryOut {α : Type} : FileTask α → IO α
  | .done value => return value
  | .perform operation next => do carryOut (next (← answer operation))

/-- The variables in what the system keeps as the environment: texts that end in a zero byte, the
name before the first equals sign. -/
def variablesIn (content : String) : List (String × String) :=
  (Text.splitAt '\x00' content.toList).filterMap fun setting =>
    match setting.dropWhile (· != '=') with
    | _ :: value => some (String.ofList (setting.takeWhile (· != '=')), String.ofList value)
    | [] => none

/-- The greatest size, in bytes, of an environment that is read. -/
def environmentLimit : USize := 4194304

/-- The environment of the program. -/
def environment : IO (List (String × String)) := do
  let content ← attempt do
    let file ← IO.FS.Handle.mk "/proc/self/environ" .read
    file.read environmentLimit
  match content with
  | .ok bytes => return variablesIn (Text.lossyText bytes)
  | .error _ => return []

/-- The path of the working directory, if there is one. -/
def workingDirectory : IO (Option String) := do
  match ← attempt IO.currentDir with
  | .ok path => return some path.toString
  | .error _ => return none

/-- What the program finds around it. -/
def surroundings : IO Surroundings := do
  return {
    environment := ← environment
    accountHome := none
    workingDirectory := ← workingDirectory
    now := (← Std.Time.Timestamp.now).toSecondsSinceUnixEpoch.val
    versionControl := fun _ => none
    network := fun _ _ => false }

end FileLore.Program

/-- Runs the program with the arguments of the command line. -/
def main (arguments : List String) : IO UInt32 := do
  let surroundings ← FileLore.Program.surroundings
  let outcome ← FileLore.Program.carryOut (FileLore.runProgram surroundings arguments)
  IO.print outcome.output
  return outcome.exitCode.toUInt32
