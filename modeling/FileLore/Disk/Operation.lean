import FileLore.Disk.Resolve
import FileLore.Path

/-!
# Operations on files

The operations that programs work on files with, and what each does to a disk.
An operation that fails leaves the disk as it was; only making a directory with
its parents may have made some of them.
-/

namespace FileLore

/-- An operation on files. -/
inductive Operation where
  /-- Makes a directory and those above it that are missing. -/
  | createDirectories (path : String)
  /-- Makes a file or replaces its content. -/
  | writeFile (path : String) (content : ByteArray)
  /-- Adds to the end of a file, which is made if it is missing. -/
  | appendFile (path : String) (content : ByteArray)
  /-- Moves a file in one step, in place of a file that is there. -/
  | rename (source target : String)
  /-- Removes a file. -/
  | removeFile (path : String)
  /-- Reads a file. -/
  | readFile (path : String)

/-- What an operation yields if it succeeds. -/
def Operation.Answer : Operation → Type
  | .readFile _ => ByteArray
  | _ => Unit

namespace Disk

/-- Makes one directory. -/
def makeDirectory (disk : Disk) (path : String) : Except DiskError Disk :=
  match disk.destination? path with
  | .error reason => .error reason
  | .ok (.directory _) => .error .alreadyExists
  | .ok (.name parent name) =>
    if (disk.at? (parent ++ [name])).isSome then .error .alreadyExists
    else if disk.isDirectory parent then .ok (disk.put (parent ++ [name]) .directory)
    else .error .notFound

/-- Whether a path leads to a directory. -/
def leadsToDirectory (disk : Disk) (path : String) : Bool :=
  match disk.find? path with
  | .ok (_, .directory) => true
  | _ => false

/-- Makes the innermost directory of `paths` that can be made, the paths being a directory and
those above it. Yields the directories, innermost first, that are still missing inside it. -/
def makeOutermost (disk : Disk) : List String → Except DiskError Disk × List String
  | [] => (.ok disk, [])
  | path :: parents =>
    match disk.makeDirectory path with
    | .ok next => (.ok next, [])
    | .error .notFound =>
      -- What is missing lies farther out; this directory comes after those around it.
      let (result, missing) := disk.makeOutermost parents
      (result, path :: missing)
    | .error reason =>
      if reason = .alreadyExists && disk.leadsToDirectory path then (.ok disk, [])
      else (.error reason, [])

/-- Makes the directories one after the other, passing over those that are there by then. -/
def makeEach (disk : Disk) : List String → Except DiskError Unit × Disk
  | [] => (.ok (), disk)
  | path :: rest =>
    match disk.makeDirectory path with
    | .ok next => next.makeEach rest
    | .error reason =>
      if reason = .alreadyExists && disk.leadsToDirectory path then disk.makeEach rest
      else (.error reason, disk)

/-- Makes a directory and those above it that are missing. -/
def makeDirectories (disk : Disk) (path : String) : Except DiskError Unit × Disk :=
  match disk.makeOutermost (Path.ancestors path) with
  | (.error reason, _) => (.error reason, disk)
  | (.ok next, missing) => next.makeEach missing.reverse

/-- Makes a file of what `content` yields for the content that is there. -/
def changeFile (disk : Disk) (path : String) (content : Option ByteArray → ByteArray) :
    Except DiskError Disk :=
  match disk.destination? path with
  | .error reason => .error reason
  | .ok (.directory _) => .error .isDirectory
  | .ok (.name parent name) =>
    let location := parent ++ [name]
    match disk.at? location with
    | some .directory => .error .isDirectory
    | some (.file old) =>
      if endsInSlash path then .error .notDirectory
      else .ok (disk.put location (.file (content (some old))))
    | none =>
      if endsInSlash path then .error .isDirectory
      else if disk.isDirectory parent then .ok (disk.put location (.file (content none)))
      else .error .notFound

/-- Moves the file at `source` to `target`. -/
def moveFile (disk : Disk) (source target : String) : Except DiskError Disk :=
  match disk.find? source with
  | .error reason => .error reason
  | .ok (_, .directory) => .error .isDirectory
  | .ok (location, .file content) =>
    match disk.destination? target with
    | .error reason => .error reason
    | .ok (.directory _) => .error .isDirectory
    | .ok (.name parent name) =>
      match disk.at? (parent ++ [name]) with
      | some .directory => .error .isDirectory
      | _ =>
        if endsInSlash target then .error .notDirectory
        else if disk.isDirectory parent then
          .ok ((disk.erase location).put (parent ++ [name]) (.file content))
        else .error .notFound

/-- Removes the file at `path`. -/
def deleteFile (disk : Disk) (path : String) : Except DiskError Disk :=
  match disk.find? path with
  | .error reason => .error reason
  | .ok (_, .directory) => .error .isDirectory
  | .ok (location, .file _) => .ok (disk.erase location)

/-- The content of the file at `path`. -/
def contentOf (disk : Disk) (path : String) : Except DiskError ByteArray :=
  match disk.find? path with
  | .error reason => .error reason
  | .ok (_, .directory) => .error .isDirectory
  | .ok (_, .file content) => .ok content

/-- The disk after an operation that yields nothing else: the changed one, or the disk as it was. -/
def settle (disk : Disk) : Except DiskError Disk → Except DiskError Unit × Disk
  | .ok next => (.ok (), next)
  | .error reason => (.error reason, disk)

/-- Carries out an operation: its answer, and the disk after it. -/
def perform (disk : Disk) : (operation : Operation) → Except DiskError operation.Answer × Disk
  | .createDirectories path => disk.makeDirectories path
  | .writeFile path content => disk.settle (disk.changeFile path fun _ => content)
  | .appendFile path content =>
    disk.settle (disk.changeFile path fun old => old.getD ByteArray.empty ++ content)
  | .rename source target => disk.settle (disk.moveFile source target)
  | .removeFile path => disk.settle (disk.deleteFile path)
  | .readFile path => (disk.contentOf path, disk)

end Disk

end FileLore
