import FileLore.Json.Value
import FileLore.Number.Shortest
import FileLore.Text.Hexadecimal

/-!
# Writing JSON

Two forms of one value: compact, without any white space, and indented by two
spaces a level with a member or item a line. Members are written in the order in
which the value holds them. In a string only the quote, the backslash and the
control characters below the space are written as escapes.
-/

namespace FileLore

namespace Json

open Text

/-- One character inside a string. -/
def stringChar (c : Char) : List Char :=
  if c = '"' then ['\\', '"']
  else if c = '\\' then ['\\', '\\']
  else if c = '\x08' then ['\\', 'b']
  else if c = '\x0c' then ['\\', 'f']
  else if c = '\n' then ['\\', 'n']
  else if c = '\r' then ['\\', 'r']
  else if c = '\t' then ['\\', 't']
  else if c.toNat < 0x20 then ['\\', 'u'] ++ hexFour 'a' c.toNat
  else [c]

/-- The text as a string between double quotes. -/
def stringText (text : String) : List Char :=
  '"' :: text.toList.flatMap stringChar ++ ['"']

/-- Numbers below ten to the sixteenth and from one hundred-thousandth up have their point in
place. -/
def numberStyle : PointStyle := ⟨16, 5⟩

end Json

/-- The number as it is written. -/
def Number.text : Number → List Char
  | .integer value => Text.intText value
  | .float value => value.text Json.numberStyle

namespace Json

mutual

/-- The value without any white space. -/
def compactChars : Json → List Char
  | null => "null".toList
  | bool true => "true".toList
  | bool false => "false".toList
  | number value => value.text
  | string value => stringText value
  | array items => '[' :: compactItems items ++ [']']
  | object members => '\x7b' :: compactMembers members ++ ['\x7d']

/-- The items with commas between them. -/
def compactItems : List Json → List Char
  | [] => []
  | [last] => compactChars last
  | item :: more => compactChars item ++ ',' :: compactItems more

/-- The members with commas between them. -/
def compactMembers : List (String × Json) → List Char
  | [] => []
  | [(name, value)] => stringText name ++ ':' :: compactChars value
  | (name, value) :: more =>
    stringText name ++ ':' :: compactChars value ++ ',' :: compactMembers more

end

/-- A new line indented to the given depth. -/
def newLine (depth : Nat) : List Char :=
  '\n' :: List.replicate (2 * depth) ' '

mutual

/-- The value with an item or member a line, its own first line being indented to `depth`. -/
def prettyChars (depth : Nat) : Json → List Char
  | null => "null".toList
  | bool true => "true".toList
  | bool false => "false".toList
  | number value => value.text
  | string value => stringText value
  | array [] => ['[', ']']
  | array (item :: more) =>
    '[' :: newLine (depth + 1) ++ prettyChars (depth + 1) item ++ prettyItems (depth + 1) more ++
      newLine depth ++ [']']
  | object [] => ['\x7b', '\x7d']
  | object ((name, value) :: more) =>
    '\x7b' :: newLine (depth + 1) ++ stringText name ++ ':' :: ' ' ::
      prettyChars (depth + 1) value ++ prettyMembers (depth + 1) more ++ newLine depth ++ ['\x7d']

/-- Further items, each after a comma on a line of its own. -/
def prettyItems (depth : Nat) : List Json → List Char
  | [] => []
  | item :: more => ',' :: newLine depth ++ prettyChars depth item ++ prettyItems depth more

/-- Further members, each after a comma on a line of its own. -/
def prettyMembers (depth : Nat) : List (String × Json) → List Char
  | [] => []
  | (name, value) :: more =>
    ',' :: newLine depth ++ stringText name ++ ':' :: ' ' :: prettyChars depth value ++
      prettyMembers depth more

end

/-- The value as text without any white space. -/
def compact (value : Json) : String :=
  String.ofList (compactChars value)

/-- The value as text with an item or member a line. -/
def pretty (value : Json) : String :=
  String.ofList (prettyChars 0 value)

end Json

end FileLore
