import FileLore.Number.Binary64
import FileLore.Text.Hexadecimal
import FileLore.Toml.Value

/-!
# Reading TOML: single values

Strings in their four forms, numbers, dates and the words for true and false, as
well as the keys that values are given under. Every reader takes a text and
yields what stands at its start with the rest, or nothing.
-/

namespace FileLore.Toml

open Text

/-- The characters of a line that are no control characters, with the tab. -/
def isPlain (c : Char) : Bool :=
  c == '\t' || (0x20 ≤ c.toNat && c.toNat != 0x7F)

/-- The text without the spaces and tabs that it begins with. -/
def skipSpace (text : List Char) : List Char :=
  text.dropWhile fun c => c == ' ' || c == '\t'

/-! ## Strings -/

/-- The character that an escape stands for, the text being what follows the backslash. -/
def escape? : List Char → Option (Char × List Char)
  | 'b' :: rest => some ('\x08', rest)
  | 't' :: rest => some ('\t', rest)
  | 'n' :: rest => some ('\n', rest)
  | 'f' :: rest => some ('\x0c', rest)
  | 'r' :: rest => some ('\r', rest)
  | '"' :: rest => some ('"', rest)
  | '\\' :: rest => some ('\\', rest)
  | 'u' :: rest => codePoint? 4 rest
  | 'U' :: rest => codePoint? 8 rest
  | _ => none

/-- A string in double quotes, after the first of them. -/
def basicString? : Nat → List Char → Option (List Char × List Char)
  | 0, _ => none
  | _ + 1, [] => none
  | fuel + 1, c :: rest =>
    if c = '"' then some ([], rest)
    else if c = '\\' then
      match escape? rest with
      | some (c, rest) =>
        (basicString? fuel rest).map fun (text, rest) => (c :: text, rest)
      | none => none
    else if isPlain c then (basicString? fuel rest).map fun (text, rest) => (c :: text, rest)
    else none

/-- A string in single quotes, after the first of them. -/
def literalString? : List Char → Option (List Char × List Char)
  | [] => none
  | c :: rest =>
    if c = '\'' then some ([], rest)
    else if isPlain c then (literalString? rest).map fun (text, rest) => (c :: text, rest)
    else none

/-- The text after the line end that it begins with. -/
def lineEnd? : List Char → Option (List Char)
  | '\n' :: rest => some rest
  | '\r' :: '\n' :: rest => some rest
  | _ => none

/-- What closes a string with lines that ends in this many quotes: three of them are the end, and
up to two before these belong to the text. -/
def closingQuotes? (quote : Char) (text : List Char) : Option (List Char × List Char) :=
  let count := (text.takeWhile (· == quote)).length
  if 3 ≤ count && count ≤ 5 then some (List.replicate (count - 3) quote, text.drop count) else none

/-- The text after blanks and line ends. -/
def skipBlankLines : List Char → List Char
  | ' ' :: rest => skipBlankLines rest
  | '\t' :: rest => skipBlankLines rest
  | '\n' :: rest => skipBlankLines rest
  | '\r' :: '\n' :: rest => skipBlankLines rest
  | text => text

/-- A string with lines in double quotes, after the quotes that open it. A backslash at the end of a
line takes away the line end and all white space up to the next character. -/
def basicLines? : Nat → List Char → Option (List Char × List Char)
  | 0, _ => none
  | _ + 1, [] => none
  | fuel + 1, c :: rest =>
    if c = '"' then
      match rest with
      | '"' :: '"' :: _ => closingQuotes? '"' (c :: rest)
      | _ => (basicLines? fuel rest).map fun (text, rest) => (c :: text, rest)
    else if c = '\\' then
      match escape? rest with
      | some (c, rest) => (basicLines? fuel rest).map fun (text, rest) => (c :: text, rest)
      | none =>
        match lineEnd? (skipSpace rest) with
        | some rest => basicLines? fuel (skipBlankLines rest)
        | none => none
    else
      match lineEnd? (c :: rest) with
      | some rest => (basicLines? fuel rest).map fun (text, rest) => ('\n' :: text, rest)
      | none =>
        if isPlain c then (basicLines? fuel rest).map fun (text, rest) => (c :: text, rest)
        else none

/-- A string with lines in single quotes, after the quotes that open it. -/
def literalLines? : Nat → List Char → Option (List Char × List Char)
  | 0, _ => none
  | _ + 1, [] => none
  | fuel + 1, c :: rest =>
    if c = '\'' then
      match rest with
      | '\'' :: '\'' :: _ => closingQuotes? '\'' (c :: rest)
      | _ => (literalLines? fuel rest).map fun (text, rest) => (c :: text, rest)
    else
      match lineEnd? (c :: rest) with
      | some rest => (literalLines? fuel rest).map fun (text, rest) => ('\n' :: text, rest)
      | none =>
        if isPlain c then (literalLines? fuel rest).map fun (text, rest) => (c :: text, rest)
        else none

/-- The text without a line end right at its start. -/
def dropLineEnd (text : List Char) : List Char :=
  (lineEnd? text).getD text

/-- A string in any of its four forms. -/
def string? : List Char → Option (List Char × List Char)
  | '"' :: '"' :: '"' :: rest => basicLines? (rest.length + 1) (dropLineEnd rest)
  | '\'' :: '\'' :: '\'' :: rest => literalLines? (rest.length + 1) (dropLineEnd rest)
  | '"' :: rest => basicString? (rest.length + 1) rest
  | '\'' :: rest => literalString? rest
  | _ => none

/-! ## Keys -/

/-- The characters of keys without quotes. -/
def isBare (c : Char) : Bool :=
  ('a' ≤ c && c ≤ 'z') || ('A' ≤ c && c ≤ 'Z') || ('0' ≤ c && c ≤ '9') || c == '_' || c == '-'

/-- A part of a key: bare, or in quotes on one line. -/
def keyPart? : List Char → Option (List Char × List Char)
  | '"' :: rest => basicString? (rest.length + 1) rest
  | '\'' :: rest => literalString? rest
  | text =>
    let bare := text.takeWhile isBare
    if bare.isEmpty then none else some (bare, text.drop bare.length)

/-- The parts of a key, with dots and perhaps blanks between and around them. -/
def keyParts? : Nat → List Char → Option (List String × List Char)
  | 0, _ => none
  | fuel + 1, text =>
    match keyPart? (skipSpace text) with
    | none => none
    | some (part, rest) =>
      match skipSpace rest with
      | '.' :: rest =>
        (keyParts? fuel rest).map fun (parts, rest) => (String.ofList part :: parts, rest)
      | rest => some ([String.ofList part], rest)

/-- The number that neither the parts of a key nor the depth of nesting may reach. -/
def depthLimit : Nat := 80

/-- A key with all its parts. -/
def key? (text : List Char) : Option (List String × List Char) :=
  match keyParts? (text.length + 1) text with
  | some (parts, rest) => if parts.length < depthLimit then some (parts, rest) else none
  | none => none

/-! ## Numbers -/

/-- Whether `c` is a digit in a base up to sixteen. -/
def digitIn? (base : Nat) (c : Char) : Option Nat :=
  match hexValue? c with
  | some digit => if digit < base then some digit else none
  | none => none

/-- Digits, each of them, after the first, perhaps with a low line before it. -/
def moreDigits (base : Nat) : List Char → List Nat × List Char
  | [] => ([], [])
  | '_' :: c :: rest =>
    match digitIn? base c with
    | some digit =>
      let (digits, rest) := moreDigits base rest
      (digit :: digits, rest)
    | none => ([], '_' :: c :: rest)
  | c :: rest =>
    match digitIn? base c with
    | some digit =>
      let (digits, rest) := moreDigits base rest
      (digit :: digits, rest)
    | none => ([], c :: rest)

/-- Digits, at least one, with single low lines between them. -/
def digits? (base : Nat) : List Char → Option (List Nat × List Char)
  | [] => none
  | c :: rest =>
    match digitIn? base c with
    | some digit =>
      let (digits, rest) := moreDigits base rest
      some (digit :: digits, rest)
    | none => none

/-- The digits of a whole number in decimal: a zero stands alone. -/
def wholeDigits? : List Char → Option (List Nat × List Char)
  | '0' :: rest => some ([0], rest)
  | text => digits? 10 text

/-- A sign and what follows it. -/
def sign : List Char → Bool × List Char
  | '-' :: rest => (true, rest)
  | '+' :: rest => (false, rest)
  | text => (false, text)

/-- The greatest whole number that a value can be. -/
def greatestInteger : Nat := Nat.pow 2 63 - 1

/-- The whole number made of digits, if it is in range. -/
def integerOf? (negative : Bool) (base : Nat) (digits : List Nat) : Option Toml :=
  let value := valueOfDigits base 0 digits
  if negative then
    if value ≤ greatestInteger + 1 then some (.integer (-Int.ofNat value)) else none
  else if value ≤ greatestInteger then some (.integer (Int.ofNat value))
  else none

/-- A whole number. -/
def integer? (text : List Char) : Option (Toml × List Char) :=
  let based (base : Nat) (rest : List Char) : Option (Toml × List Char) := do
    let (digits, rest) ← digits? base rest
    return (← integerOf? false base digits, rest)
  match text with
  | '0' :: 'x' :: rest => based 16 rest
  | '0' :: 'o' :: rest => based 8 rest
  | '0' :: 'b' :: rest => based 2 rest
  | _ => do
    let (negative, rest) := sign text
    let (digits, rest) ← wholeDigits? rest
    return (← integerOf? negative 10 digits, rest)

/-- The digits after a point. -/
def fraction? : List Char → Option (List Nat × List Char)
  | '.' :: rest => digits? 10 rest
  | _ => none

/-- The power of ten after its mark. -/
def power? : List Char → Option ((Bool × List Nat) × List Char)
  | c :: rest =>
    if c = 'e' || c = 'E' then
      let (negative, rest) := sign rest
      (digits? 10 rest).map fun (digits, rest) => ((negative, digits), rest)
    else none
  | [] => none

/-- Whether a decimal is too large for double precision: `value` with `places` digits after the
point, times a power of ten. Powers beyond all bounds are told by the number of digits. -/
def isInfinite (value places : Nat) (power : Int) : Bool :=
  let exponent := power - Int.ofNat places
  if value = 0 then false
  else if 310 < exponent then true
  else if exponent < -400 - Int.ofNat (natText value).length then false
  else
    (Magnitude.ofRatio? (value * Nat.pow 10 exponent.toNat) (Nat.pow 10 (-exponent).toNat)).isNone

/-- A number with a point, a power of ten, or both. It may be too large only if it is negative. -/
def decimal? (text : List Char) : Option (Toml × List Char) := do
  let (negative, rest) := sign text
  let (whole, rest) ← wholeDigits? rest
  let (places, rest, pointed) :=
    match fraction? rest with
    | some (digits, rest) => (digits, rest, true)
    | none => ([], rest, false)
  let ((down, power), rest, powered) :=
    match power? rest with
    | some (power, rest) => (power, rest, true)
    | none => ((false, []), rest, false)
  if !pointed && !powered then none
  else
    let value := valueOfDigits 10 (valueOfDigits 10 0 whole) places
    let exponent := Int.ofNat (valueOfDigits 10 0 power)
    let exponent := if down then -exponent else exponent
    if !negative && isInfinite value places.length exponent then none
    else return (.float, rest)

/-- Infinity and what is no number, with a sign or without. -/
def special? (text : List Char) : Option (Toml × List Char) :=
  match (sign text).2 with
  | 'i' :: 'n' :: 'f' :: rest => some (.float, rest)
  | 'n' :: 'a' :: 'n' :: rest => some (.float, rest)
  | _ => none

/-! ## Dates -/

/-- A number of exactly `count` digits. -/
def fixedDigits? : Nat → Nat → List Char → Option (Nat × List Char)
  | 0, value, text => some (value, text)
  | count + 1, value, c :: text =>
    match digitValue? c with
    | some digit => fixedDigits? count (value * 10 + digit) text
    | none => none
  | _ + 1, _, [] => none

/-- Whether a year has a leap day. -/
def isLeapYear (year : Nat) : Bool :=
  (year % 4 == 0 && year % 100 != 0) || year % 400 == 0

/-- The number of days of a month. -/
def daysOfMonth (year month : Nat) : Nat :=
  if month = 2 then if isLeapYear year then 29 else 28
  else if month = 4 || month = 6 || month = 9 || month = 11 then 30
  else 31

/-- The text after a fixed character. -/
def expect? (c : Char) : List Char → Option (List Char)
  | d :: rest => if d = c then some rest else none
  | [] => none

/-- A date, as the text after it. -/
def dayPart? (text : List Char) : Option (List Char) := do
  let (year, rest) ← fixedDigits? 4 0 text
  let rest ← expect? '-' rest
  let (month, rest) ← fixedDigits? 2 0 rest
  let rest ← expect? '-' rest
  let (day, rest) ← fixedDigits? 2 0 rest
  if 1 ≤ month && month ≤ 12 && 1 ≤ day && day ≤ daysOfMonth year month then some rest else none

/-- The text after a fraction of a second, if there is one; its point needs a digit. -/
def secondFraction? : List Char → Option (List Char)
  | '.' :: rest =>
    let digits := rest.takeWhile fun c => (digitValue? c).isSome
    if digits.isEmpty then none else some (rest.drop digits.length)
  | text => some text

/-- A time of day, as the text after it. -/
def timePart? (text : List Char) : Option (List Char) := do
  let (hour, rest) ← fixedDigits? 2 0 text
  let rest ← expect? ':' rest
  let (minute, rest) ← fixedDigits? 2 0 rest
  let rest ← expect? ':' rest
  let (second, rest) ← fixedDigits? 2 0 rest
  if hour < 24 && minute < 60 && second ≤ 60 then secondFraction? rest else none

/-- A distance from universal time, as the text after it. -/
def offsetPart? : List Char → Option (List Char)
  | 'Z' :: rest => some rest
  | 'z' :: rest => some rest
  | c :: rest =>
    if c = '+' || c = '-' then do
      let (hour, rest) ← fixedDigits? 2 0 rest
      let rest ← expect? ':' rest
      let (minute, rest) ← fixedDigits? 2 0 rest
      if hour < 24 && minute < 60 then some rest else none
    else none
  | [] => none

/-- What follows the mark between a date and a time of day. -/
def afterTimeMark? : List Char → Option (List Char)
  | c :: rest => if c = 'T' || c = 't' || c = ' ' then some rest else none
  | [] => none

/-- A date, a time of day, or a date with a time of day and perhaps its distance from universal
time. -/
def date? (text : List Char) : Option (Toml × List Char) :=
  match dayPart? text with
  | some rest =>
    match (afterTimeMark? rest).bind timePart? with
    | some timed => some (.date, (offsetPart? timed).getD timed)
    | none => some (.date, rest)
  | none => (timePart? text).map fun rest => (.date, rest)

/-- A value that is no string and holds no others. -/
def scalar? (text : List Char) : Option (Toml × List Char) :=
  match text with
  | 't' :: 'r' :: 'u' :: 'e' :: rest => some (.boolean true, rest)
  | 'f' :: 'a' :: 'l' :: 's' :: 'e' :: rest => some (.boolean false, rest)
  | _ => date? text <|> decimal? text <|> special? text <|> integer? text

end FileLore.Toml
