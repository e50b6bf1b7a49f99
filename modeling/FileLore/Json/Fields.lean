import FileLore.Json.Spelling

/-!
# Reading records from JSON

How a record with fixed fields is read off the spelling of a JSON text. Its
fields may stand as the members of an object, in any order and among members of
other names, or as the items of an array in the order in which the record
declares them. A field that stands there twice makes the record unreadable, and
so does an array that is too long. Members of other names are passed over
whatever they hold.
-/

namespace FileLore.Json.Spelling

/-- The text that a string spells. -/
def text? : Spelling → Option String
  | .string value => value
  | _ => none

/-- The texts that an array of strings spells. -/
def texts? : Spelling → Option (List String)
  | .array items => items.mapM text?
  | _ => none

/-- Whether null is spelled. -/
def isNull : Spelling → Bool
  | .null => true
  | _ => false

/-- The tag of one of several cases: a string, or an object whose only member has the tag for its
name and holds null. -/
def tag? : Spelling → Option String
  | .string value => value
  | .object [(name, .null)] => name
  | _ => none

/-- The values of the members called `name`. -/
def valuesOf (name : String) (members : List (Option String × Spelling)) : List Spelling :=
  (members.filter fun member => member.1 == some name).map (·.2)

/-- The only value of a field, if it is there; a field that is there twice cannot be read. -/
def single? : List Spelling → Option (Option Spelling)
  | [] => some none
  | [value] => some (some value)
  | _ => none

/-- The values of the record's fields in the order of `names`, where there is one. -/
def fields? (names : List String) : Spelling → Option (List (Option Spelling))
  | .object members =>
    if members.all (·.1.isSome) then names.mapM fun name => single? (valuesOf name members)
    else none
  | .array items =>
    if items.length ≤ names.length then
      some ((items.map some) ++ List.replicate (names.length - items.length) none)
    else none
  | _ => none

end FileLore.Json.Spelling
