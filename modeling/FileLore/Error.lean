import FileLore.Disk.Basic
import FileLore.Remote.Executor
import FileLore.Text.Quoted

/-!
# Errors

Why an operation of the library fails, and the words for it.
-/

namespace FileLore

/-- Why an operation fails. -/
inductive Error where
  /-- The configuration cannot be used. -/
  | config (reason : String)
  /-- An operation on a file fails. -/
  | io (path : String) (cause : DiskError)
  /-- A stored text is not of the form that it should be of. -/
  | malformed
  /-- A call is not taken. -/
  | remote (reason : String)
  /-- A stored value is not of the kind that it should be of. -/
  | validation (reason : String)
  deriving DecidableEq, Repr

/-- The error in words. -/
def Error.message : Error → String
  | config reason => "config error: " ++ reason
  | io path cause =>
    "I/O error at " ++ String.ofList (Text.quoted path.toList) ++ ": " ++ cause.message
  | malformed => "serialization error"
  | remote reason => "remote call error: " ++ reason
  | validation reason => "validation error: " ++ reason

/-- A refused call as an error. -/
def RemoteError.toError (refusal : RemoteError) : Error :=
  .remote refusal.message

end FileLore
