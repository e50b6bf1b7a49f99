import FileLore.Number.Binary64

/-!
# JSON values

The values that remote calls carry and artifacts hold. Members of an object are
kept sorted by their names wherever an object is built from members; setting a
member that is there replaces it.
-/

namespace FileLore

/-- A number: whole as far as 64 bits reach, of double precision otherwise. -/
inductive Number where
  | integer (value : Int)
  | float (value : Binary64)
  deriving DecidableEq, Repr

/-- The number in double precision; none if it is too large. -/
def Number.rounded? : Number → Option Binary64
  | .integer value =>
    (Magnitude.ofRatio? value.natAbs 1).map fun magnitude => ⟨decide (value < 0), magnitude⟩
  | .float value => some value

/-- Whether the number is greater than zero in double precision. -/
def Number.isPositive (number : Number) : Bool :=
  number.rounded?.any (·.isPositive)

/-- A JSON value. -/
inductive Json where
  | null
  | bool (value : Bool)
  | number (value : Number)
  | string (value : String)
  | array (items : List Json)
  | object (members : List (String × Json))

namespace Json

/-- The members of an object. -/
abbrev Members := List (String × Json)

/-- The members with `name` set to `value`, in its place in the order of the names. -/
def Members.set (name : String) (value : Json) : Members → Members
  | [] => [(name, value)]
  | (n, v) :: rest =>
    if n = name then (name, value) :: rest
    else if name < n then (name, value) :: (n, v) :: rest
    else (n, v) :: Members.set name value rest

/-- The members with each of `changes` set in turn, so the last change of a name holds. -/
def Members.setAll (changes members : Members) : Members :=
  changes.foldl (fun all change => all.set change.1 change.2) members

/-- The object with these members; of two members of one name the last holds. -/
def ofMembers (members : Members) : Json :=
  object (Members.setAll members [])

/-- The member of an object with the given name; other values have no members. -/
def member? (name : String) : Json → Option Json
  | object members => members.lookup name
  | _ => none

/-- The list of texts as an array. -/
def ofTexts (texts : List String) : Json :=
  array (texts.map string)

end Json

end FileLore
