import FileLore.Text.Hexadecimal

/-!
# Reading JSON: the spelling

A JSON text is read in two steps. The first, here, goes by the grammar alone and
yields what the text spells: numbers as their digits, members in the order and
as often as they stand there. What the spelling means, and whether it means
anything, is left to the second step, because a part that nobody asks for may
spell a number beyond all bounds or half a character.
-/

namespace FileLore.Json

open Text

/-- A number as it is spelled. -/
structure NumberSpelling where
  negative : Bool
  /-- The digits before the point. -/
  whole : List Nat
  /-- The digits after the point, if there is one. -/
  fraction : Option (List Nat)
  /-- The power of ten, if there is one: whether it is negative, and its digits. -/
  power : Option (Bool × List Nat)

/-- What a JSON text spells. A string that holds half of a surrogate pair spells no text. -/
inductive Spelling where
  | null
  | bool (value : Bool)
  | number (value : NumberSpelling)
  | string (value : Option String)
  | array (items : List Spelling)
  | object (members : List (Option String × Spelling))

/-- Whether `c` may stand between the parts of a JSON text. -/
def isSpace (c : Char) : Bool :=
  c == ' ' || c == '\t' || c == '\n' || c == '\r'

/-- The text without the space it begins with. -/
def skipSpace (text : List Char) : List Char :=
  text.dropWhile isSpace

/-! ## Numbers -/

/-- The decimal digits that the text begins with, and the rest. -/
def leadingDigits : List Char → List Nat × List Char
  | [] => ([], [])
  | c :: rest =>
    match digitValue? c with
    | some digit =>
      let (digits, rest) := leadingDigits rest
      (digit :: digits, rest)
    | none => ([], c :: rest)

/-- Digits of which there must be one. -/
def someDigits? (text : List Char) : Option (List Nat × List Char) :=
  match leadingDigits text with
  | ([], _) => none
  | found => some found

/-- The digits of a whole number: a zero stands alone. -/
def wholeDigits? (text : List Char) : Option (List Nat × List Char) :=
  match leadingDigits text with
  | ([], _) => none
  | (0 :: _ :: _, _) => none
  | found => some found

/-- The digits after a point, if a point comes next. -/
def fraction? : List Char → Option (Option (List Nat) × List Char)
  | '.' :: rest => (someDigits? rest).map fun (digits, rest) => (some digits, rest)
  | text => some (none, text)

/-- The digits of a power of ten after its mark, with an optional sign. -/
def signedDigits? : List Char → Option (Option (Bool × List Nat) × List Char)
  | '-' :: rest => (someDigits? rest).map fun (digits, rest) => (some (true, digits), rest)
  | '+' :: rest => (someDigits? rest).map fun (digits, rest) => (some (false, digits), rest)
  | text => (someDigits? text).map fun (digits, rest) => (some (false, digits), rest)

/-- The power of ten, if its mark comes next. -/
def power? : List Char → Option (Option (Bool × List Nat) × List Char)
  | 'e' :: rest => signedDigits? rest
  | 'E' :: rest => signedDigits? rest
  | text => some (none, text)

/-- A number at the start of the text. -/
def readNumber? (text : List Char) : Option (NumberSpelling × List Char) :=
  let (negative, text) :=
    match text with
    | '-' :: rest => (true, rest)
    | _ => (false, text)
  match wholeDigits? text with
  | none => none
  | some (whole, text) =>
    match fraction? text with
    | none => none
    | some (fraction, text) =>
      (power? text).map fun (power, rest) => (⟨negative, whole, fraction, power⟩, rest)

/-! ## Strings -/

/-- A part of a string: a character, or a UTF-16 unit given by an escape. -/
inductive StringPart where
  | char (value : Char)
  | unit (value : Nat)

/-- The value of four digits in base sixteen. -/
def unitValue? (a b c d : Char) : Option Nat := do
  let a ← hexValue? a
  let b ← hexValue? b
  let c ← hexValue? c
  let d ← hexValue? d
  return valueOfDigits 16 0 [a, b, c, d]

/-- The character that a short escape stands for. -/
def shortEscape? (c : Char) : Option Char :=
  if c = '"' || c = '\\' || c = '/' then some c
  else if c = 'b' then some '\x08'
  else if c = 'f' then some '\x0c'
  else if c = 'n' then some '\n'
  else if c = 'r' then some '\r'
  else if c = 't' then some '\t'
  else none

/-- The parts of a string up to its closing quote, and the rest of the text. -/
def readParts? : List Char → Option (List StringPart × List Char)
  | [] => none
  | '"' :: rest => some ([], rest)
  | '\\' :: 'u' :: a :: b :: c :: d :: rest =>
    match unitValue? a b c d with
    | none => none
    | some n => (readParts? rest).map fun (parts, rest) => (.unit n :: parts, rest)
  | '\\' :: e :: rest =>
    match shortEscape? e with
    | none => none
    | some c => (readParts? rest).map fun (parts, rest) => (.char c :: parts, rest)
  | c :: rest =>
    if c.toNat < 0x20 || c = '\\' then none
    else (readParts? rest).map fun (parts, rest) => (.char c :: parts, rest)

/-- The characters that the parts spell; a high surrogate needs a low one right after it, and a low
one a high one before it. -/
def charsOfParts? : List StringPart → Option (List Char)
  | [] => some []
  | .char c :: rest => (charsOfParts? rest).map (c :: ·)
  | .unit n :: rest =>
    if n < 0xD800 || 0xE000 ≤ n then (charsOfParts? rest).map (Char.ofNat n :: ·)
    else if n < 0xDC00 then
      match rest with
      | .unit low :: rest =>
        if 0xDC00 ≤ low && low < 0xE000 then
          (charsOfParts? rest).map
            (Char.ofNat (0x10000 + (n - 0xD800) * 0x400 + (low - 0xDC00)) :: ·)
        else none
      | _ => none
    else none

/-- A string at the start of the text, after its opening quote. -/
def readString? (text : List Char) : Option (Option String × List Char) :=
  (readParts? text).map fun (parts, rest) => ((charsOfParts? parts).map String.ofList, rest)

/-! ## Values -/

/-- The rest of the text after a fixed word. -/
def readWord? (word : String) (value : Spelling) (text : List Char) :
    Option (Spelling × List Char) :=
  if word.toList.isPrefixOf text then some (value, text.drop word.length) else none

mutual

/-- A value at the start of the text, and the rest. Every second call reads a character, which is
what `fuel` is computed from. -/
def readValue? : Nat → List Char → Option (Spelling × List Char)
  | 0, _ => none
  | fuel + 1, text =>
    match text with
    | '"' :: rest => (readString? rest).map fun (value, rest) => (.string value, rest)
    | '[' :: rest =>
      match skipSpace rest with
      | ']' :: rest => some (.array [], rest)
      | rest => (readItems? fuel rest).map fun (items, rest) => (.array items, rest)
    | '\x7b' :: rest =>
      match skipSpace rest with
      | '\x7d' :: rest => some (.object [], rest)
      | rest => (readMembers? fuel rest).map fun (members, rest) => (.object members, rest)
    | 'n' :: _ => readWord? "null" .null text
    | 't' :: _ => readWord? "true" (.bool true) text
    | 'f' :: _ => readWord? "false" (.bool false) text
    | _ => (readNumber? text).map fun (value, rest) => (.number value, rest)

/-- The items of an array, at least one, up to its closing bracket. -/
def readItems? : Nat → List Char → Option (List Spelling × List Char)
  | 0, _ => none
  | fuel + 1, text =>
    match readValue? fuel text with
    | none => none
    | some (item, rest) =>
      match skipSpace rest with
      | ']' :: rest => some ([item], rest)
      | ',' :: rest =>
        (readItems? fuel (skipSpace rest)).map fun (items, rest) => (item :: items, rest)
      | _ => none

/-- The members of an object, at least one, up to its closing brace. -/
def readMembers? : Nat → List Char → Option (List (Option String × Spelling) × List Char)
  | 0, _ => none
  | fuel + 1, text =>
    match text with
    | '"' :: rest =>
      match readString? rest with
      | none => none
      | some (name, rest) =>
        match skipSpace rest with
        | ':' :: rest =>
          match readValue? fuel (skipSpace rest) with
          | none => none
          | some (value, rest) =>
            match skipSpace rest with
            | '\x7d' :: rest => some ([(name, value)], rest)
            | ',' :: rest =>
              (readMembers? fuel (skipSpace rest)).map fun (members, rest) =>
                ((name, value) :: members, rest)
            | _ => none
        | _ => none
    | _ => none

end

/-- What a whole text spells; nothing but space may stand around the value. -/
def Spelling.ofText? (text : List Char) : Option Spelling :=
  match readValue? (2 * text.length + 2) (skipSpace text) with
  | some (value, rest) => if (skipSpace rest).isEmpty then some value else none
  | none => none

end FileLore.Json
