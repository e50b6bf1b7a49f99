import FileLore.Text.Search

/-!
# Paths as text

What can be read off the text of a path without looking at a disk. Components
are separated by slashes; repeated and trailing slashes separate nothing, and a
`.` names the place it stands at, so it counts as a component only at the very
start of a relative path.
-/

namespace FileLore.Path

open Text

/-- Whether the path starts at the root. -/
def isAbsolute (path : String) : Bool :=
  path.toList.head? == some '/'

/-- What follows the last slash: all of a path without one, nothing if the path ends in one. -/
def afterLastSlash (path : List Char) : List Char :=
  (path.reverse.takeWhile (· != '/')).reverse

/-- The last part of the path, as the text after its last slash. -/
def baseName (path : String) : String :=
  String.ofList (afterLastSlash path.toList)

/-- The components of the path that name a place: neither empty nor `.`. -/
def names (path : String) : List (List Char) :=
  (splitAt '/' path.toList).filter fun name => !name.isEmpty && name != ['.']

/-- The name of the file that the path leads to; none if it ends in `..` or names nothing. -/
def fileName? (path : String) : Option (List Char) :=
  match (names path).getLast? with
  | some name => if name = ['.', '.'] then none else some name
  | none => none

/-- What follows the last dot of the file name. A name whose only dot is its first character has no
extension. -/
def extension? (path : String) : Option (List Char) :=
  match fileName? path with
  | none => none
  | some name =>
    match name.reverse.dropWhile (· != '.') with
    | '.' :: _ :: _ => some (name.reverse.takeWhile (· != '.')).reverse
    | _ => none

/-- The path that `path` leads to from the directory `base`. -/
def join (base path : String) : String :=
  if isAbsolute path then path
  else if base.isEmpty || base.toList.getLast? == some '/' then base ++ path
  else base ++ "/" ++ path

/-- A path, back to front, without trailing slashes and trailing `.` components. -/
def trimmedBack : List Char → List Char
  | ['/'] => ['/']
  | '/' :: rest => trimmedBack rest
  | '.' :: '/' :: rest => trimmedBack ('/' :: rest)
  | path => path

/-- The path without its last component; none for the root and for the empty path. -/
def parent? (path : String) : Option String :=
  match trimmedBack path.toList.reverse with
  | [] => none
  | ['/'] => none
  | back => some (String.ofList (trimmedBack (back.dropWhile (· != '/'))).reverse)

/-- The path and then its parents, at most `fuel` of them, before the root and the empty path. -/
def ancestorsFrom : Nat → String → List String
  | 0, _ => []
  | fuel + 1, path =>
    match parent? path with
    | none => []
    | some parent => path :: ancestorsFrom fuel parent

/-- The path and the paths of the directories that hold it, innermost first, without the root and
the empty path. A parent is shorter than its path. -/
def ancestors (path : String) : List String :=
  ancestorsFrom (path.length + 1) path

end FileLore.Path
