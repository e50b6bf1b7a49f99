import FileLore.Artifact.Namespace
import FileLore.Disk.FileTask
import FileLore.Error

/-!
# The cache

A cache keeps one artifact for each file and namespace, all of them in one
directory. The name of an artifact is the path of the file with a low line for
every slash, and the tag of the namespace; paths that differ in no more than
that share their artifacts.

An artifact is replaced as a whole: its new content goes to a temporary file
beside it, which is then moved into its place.
-/

namespace FileLore

/-- A cache, by the directory that holds its artifacts. -/
structure Cache where
  root : String
  deriving DecidableEq, Repr

namespace Cache

/-- What stands for a path in the names of artifacts. -/
def key (path : String) : String :=
  String.ofList (path.toList.map fun c => if c = '/' then '_' else c)

/-- The name of an artifact within the root. -/
def artifactName (category : Namespace) (path : String) : String :=
  key path ++ "_" ++ category.tag ++ ".json"

/-- The path of an artifact. -/
def artifactPath (cache : Cache) (category : Namespace) (path : String) : String :=
  Path.join cache.root (artifactName category path)

/-- The name of the temporary file for an artifact. -/
def temporaryName (category : Namespace) (path : String) : String :=
  "." ++ artifactName category path ++ ".tmp"

/-- The path of the temporary file for an artifact. -/
def temporaryPath (cache : Cache) (category : Namespace) (path : String) : String :=
  Path.join cache.root (temporaryName category path)

/-- Stores an artifact in place of the one that is there, and yields its path. The root is made if
it is missing. If the temporary file cannot be moved into place, it is removed. -/
def store (cache : Cache) (category : Namespace) (path payload : String) :
    FileTask (Except Error String) := do
  let target := cache.artifactPath category path
  let temporary := cache.temporaryPath category path
  match ← FileTask.request (.createDirectories cache.root) with
  | .error cause => return .error (.io cache.root cause)
  | .ok _ =>
    match ← FileTask.request (.writeFile temporary payload.toUTF8) with
    | .error cause => return .error (.io temporary cause)
    | .ok _ =>
      match ← FileTask.request (.rename temporary target) with
      | .ok _ => return .ok target
      | .error cause =>
        let _ ← FileTask.request (.removeFile temporary)
        return .error (.io target cause)

/-- The text of an artifact; none if there is none. -/
def read (cache : Cache) (category : Namespace) (path : String) :
    FileTask (Except Error (Option String)) := do
  let target := cache.artifactPath category path
  match ← FileTask.readText target with
  | .ok text => return .ok (some text)
  | .error .notFound => return .ok none
  | .error cause => return .error (.io target cause)

end Cache

end FileLore
