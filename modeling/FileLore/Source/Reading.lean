import FileLore.Disk.FileTask
import FileLore.Source.Record
import FileLore.Text.Utf8

/-!
# Reading sources

Sources are read as text whatever their bytes are: what is no text in them shows
as replacement characters. A file that cannot be read has no source.
-/

namespace FileLore

/-- The source in the file at `path`. -/
def readSource (path : String) : FileTask (Option String) :=
  .perform (.readFile path) fun
    | .ok content => .done (some (Text.lossyText content))
    | .error _ => .done none

/-- The source that is given or else that in the file at `path`. -/
def givenOrRead (path : String) (given : Option String) : FileTask (Option String) :=
  match given with
  | some source => .done (some source)
  | none => readSource path

/-- The record of the file at `path`, from the source that is given or else read. -/
def recordFile (path : String) (given : Option String) : FileTask FileRecord := do
  return FileRecord.of path (← givenOrRead path given)

end FileLore
