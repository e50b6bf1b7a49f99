import FileLore.Disk.Basic
import FileLore.Text.Search

/-!
# Following paths

How a path leads to a location. It is followed name by name from the root or the
working directory: `.` stays, `..` goes up, every other name has to stand in a
directory that is there. The last name of a path may be one of something that is
not there yet, which is for the operation to judge.
-/

namespace FileLore

namespace Disk

/-- The greatest length of a name, in bytes. -/
def greatestName : Nat := 255

/-- A path of this many bytes is too long. -/
def pathLimit : Nat := 4096

/-- The names in a path, without the empty ones between repeated slashes. -/
def pathNames (path : String) : List String :=
  ((Text.splitAt '/' path.toList).filter (!·.isEmpty)).map String.ofList

/-- Whether the path asks for a directory by ending in a slash. -/
def endsInSlash (path : String) : Bool :=
  path.toList.getLast? == some '/'

/-- What keeps a path from being followed at all. -/
def unusable? (path : String) : Option DiskError :=
  if path.toList.contains '\x00' then some .nulInPath
  else if path.isEmpty then some .notFound
  else if pathLimit ≤ path.utf8ByteSize then some .tooLong
  else none

/-- The location that a path starts from. -/
def startOf (disk : Disk) (path : String) : Location :=
  if path.toList.head? == some '/' then [] else disk.workingDirectory

/-- The directory that a name leads to from a directory. -/
def enter (disk : Disk) (here : Location) (name : String) : Except DiskError Location :=
  if name = "." then .ok here
  else if name = ".." then .ok here.dropLast
  else if greatestName < name.utf8ByteSize then .error .tooLong
  else
    match disk.at? (here ++ [name]) with
    | none => .error .notFound
    | some (.file _) => .error .notDirectory
    | some .directory => .ok (here ++ [name])

/-- The directory that names lead to from a directory. -/
def enterAll (disk : Disk) : Location → List String → Except DiskError Location
  | here, [] => .ok here
  | here, name :: names =>
    match disk.enter here name with
    | .ok next => disk.enterAll next names
    | .error reason => .error reason

/-- Where a path leads: the directory that it names with a dot or as the root, or a name in a
directory. -/
inductive Destination where
  | directory (location : Location)
  | name (parent : Location) (name : String)

/-- Where a path leads; whether anything is there under the last name is not looked at. -/
def destination? (disk : Disk) (path : String) : Except DiskError Destination :=
  match unusable? path with
  | some reason => .error reason
  | none =>
    let names := pathNames path
    match names.getLast? with
    | none => .ok (.directory (disk.startOf path))
    | some last =>
      match disk.enterAll (disk.startOf path) names.dropLast with
      | .error reason => .error reason
      | .ok parent =>
        if last = "." then .ok (.directory parent)
        else if last = ".." then .ok (.directory parent.dropLast)
        else if greatestName < last.utf8ByteSize then .error .tooLong
        else .ok (.name parent last)

/-- What a path leads to, with its location. -/
def find? (disk : Disk) (path : String) : Except DiskError (Location × Entry) :=
  match disk.destination? path with
  | .error reason => .error reason
  | .ok (.directory location) => .ok (location, .directory)
  | .ok (.name parent name) =>
    let location := parent ++ [name]
    match disk.at? location with
    | none => .error .notFound
    | some .directory => .ok (location, .directory)
    | some (.file content) =>
      if endsInSlash path then .error .notDirectory else .ok (location, .file content)

end Disk

end FileLore
