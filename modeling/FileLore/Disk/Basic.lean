/-!
# Disks

A disk is what paths lead to: directories and files, each at a location, which
is the list of names that lead to it from the root. The root is always a
directory. A program runs in a working directory, from which relative paths
start; that directory may have been removed.
-/

namespace FileLore

/-- What stands at a location. -/
inductive Entry where
  | directory
  | file (content : ByteArray)

/-- The names that lead from the root to a directory or file. -/
abbrev Location := List String

/-- Directories and files, with the working directory of the program that uses them. -/
structure Disk where
  entries : List (Location × Entry)
  workingDirectory : Location

/-- Why an operation on files fails. -/
inductive DiskError where
  /-- Nothing is there. -/
  | notFound
  /-- Something is there already. -/
  | alreadyExists
  /-- A file stands where a directory is needed. -/
  | notDirectory
  /-- A directory stands where a file is needed. -/
  | isDirectory
  /-- A name or the whole path is too long. -/
  | tooLong
  /-- The path holds a character that no path can hold. -/
  | nulInPath
  /-- The content of the file is no text. -/
  | invalidText
  /-- Any other reason, in words. -/
  | other (reason : String)
  deriving DecidableEq, Repr

/-- The reason in words, with the number that the system gives it. -/
def DiskError.message : DiskError → String
  | notFound => "No such file or directory (os error 2)"
  | alreadyExists => "File exists (os error 17)"
  | notDirectory => "Not a directory (os error 20)"
  | isDirectory => "Is a directory (os error 21)"
  | tooLong => "File name too long (os error 36)"
  | nulInPath => "file name contained an unexpected NUL byte"
  | invalidText => "stream did not contain valid UTF-8"
  | other reason => reason

namespace Disk

/-- What stands at a location. -/
def at? (disk : Disk) (location : Location) : Option Entry :=
  if location = [] then some .directory else disk.entries.lookup location

/-- The disk with something put at a location in place of what is there. -/
def put (disk : Disk) (location : Location) (entry : Entry) : Disk :=
  { disk with
    entries := (location, entry) :: disk.entries.filter fun old => old.1 != location }

/-- The disk without what stands at a location. -/
def erase (disk : Disk) (location : Location) : Disk :=
  { disk with entries := disk.entries.filter fun old => old.1 != location }

/-- The disk without what stands at a location and below it. -/
def eraseTree (disk : Disk) (location : Location) : Disk :=
  { disk with entries := disk.entries.filter fun old => !location.isPrefixOf old.1 }

/-- Leaving out what stands at a location does not hide what stands elsewhere. -/
theorem lookup_filter_ne {location other : Location} (h : other ≠ location)
    (entries : List (Location × Entry)) :
    (entries.filter fun old => old.1 != location).lookup other = entries.lookup other := by
  induction entries with
  | nil => rfl
  | cons first rest ih =>
    obtain ⟨place, entry⟩ := first
    by_cases hp : place = location
    · have hne : (other == location) = false := by simpa using h
      simp [hp, List.lookup_cons, ih, hne]
    · simp [hp, List.lookup_cons, ih]

/-- Nothing stands at a location that is left out. -/
theorem lookup_filter_self (location : Location) (entries : List (Location × Entry)) :
    (entries.filter fun old => old.1 != location).lookup location = none := by
  induction entries with
  | nil => rfl
  | cons first rest ih =>
    obtain ⟨place, entry⟩ := first
    by_cases hp : place = location
    · simp [hp, ih]
    · have hne : (location == place) = false := by simpa using Ne.symm hp
      simp [hp, List.lookup_cons, ih, hne]

/-- The root is a directory. -/
@[simp] theorem at?_root (disk : Disk) : disk.at? [] = some .directory :=
  rfl

/-- What has been put at a location stands there. -/
theorem at?_put_self {location : Location} (h : location ≠ []) (disk : Disk) (entry : Entry) :
    (disk.put location entry).at? location = some entry := by
  simp [at?, put, h]

/-- What has been put at a location changes nothing elsewhere. -/
theorem at?_put_ne {location other : Location} (h : other ≠ location) (disk : Disk)
    (entry : Entry) : (disk.put location entry).at? other = disk.at? other := by
  have hne : (other == location) = false := by simpa using h
  simp [at?, put, List.lookup_cons, hne, lookup_filter_ne h]

/-- Nothing stands at a location after it has been erased. -/
theorem at?_erase_self {location : Location} (h : location ≠ []) (disk : Disk) :
    (disk.erase location).at? location = none := by
  simp [at?, erase, h, lookup_filter_self]

/-- Erasing what stands at a location changes nothing elsewhere. -/
theorem at?_erase_ne {location other : Location} (h : other ≠ location) (disk : Disk) :
    (disk.erase location).at? other = disk.at? other := by
  simp [at?, erase, lookup_filter_ne h]

/-- Whether a directory stands at a location. -/
def isDirectory (disk : Disk) (location : Location) : Bool :=
  match disk.at? location with
  | some .directory => true
  | _ => false

/-- What stands below a location, with the names that lead there from it. -/
def below (disk : Disk) (location : Location) : List (Location × Entry) :=
  disk.entries.filterMap fun old =>
    if location.isPrefixOf old.1 && location.length < old.1.length then
      some (old.1.drop location.length, old.2)
    else none

end Disk

end FileLore
