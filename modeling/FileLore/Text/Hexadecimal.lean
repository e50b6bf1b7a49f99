import FileLore.Text.Decimal

/-!
# Base sixteen

Writing whole numbers in base sixteen, reading such digits back, and the
characters that they name by their code points.
-/

namespace FileLore.Text

/-- The value of a digit in any base up to sixteen; letters count in either case. -/
def hexValue? (c : Char) : Option Nat :=
  if '0' ≤ c && c ≤ '9' then some (c.toNat - 0x30)
  else if 'a' ≤ c && c ≤ 'f' then some (c.toNat - 0x61 + 10)
  else if 'A' ≤ c && c ≤ 'F' then some (c.toNat - 0x41 + 10)
  else none

/-- The digits of `n` in base sixteen in front of `rest`, letters in the case that `ten` is in. -/
def hexOnto (ten : Char) (fuel n : Nat) (rest : List Char) : List Char :=
  match fuel with
  | 0 => rest
  | fuel + 1 =>
    let digit := n % 16
    let letter := Char.ofNat (ten.toNat + (digit - 10))
    let shown := (if digit < 10 then digitChar digit else letter) :: rest
    if n < 16 then shown else hexOnto ten fuel (n / 16) shown

/-- The number in base sixteen with small letters, without leading zeros. -/
def hexText (n : Nat) : List Char :=
  hexOnto 'a' (n + 1) n []

/-- The number in base sixteen with four digits or more, its letters as `ten` is. -/
def hexFour (ten : Char) (n : Nat) : List Char :=
  let shown := hexOnto ten (n + 1) n []
  List.replicate (4 - shown.length) '0' ++ shown

/-- The value of digits in base sixteen, exactly `count` of them. -/
def hexDigits? : Nat → Nat → List Char → Option (Nat × List Char)
  | 0, value, text => some (value, text)
  | count + 1, value, c :: text =>
    match hexValue? c with
    | some digit => hexDigits? count (value * 16 + digit) text
    | none => none
  | _ + 1, _, [] => none

/-- Whether a character has the code point `n`. -/
def isScalar (n : Nat) : Bool :=
  n < 0xD800 || (0xE000 ≤ n && n < 0x110000)

/-- The character with the code point that the digits give. -/
def codePoint? (count : Nat) (text : List Char) : Option (Char × List Char) :=
  match hexDigits? count 0 text with
  | some (n, rest) => if isScalar n then some (Char.ofNat n, rest) else none
  | none => none

end FileLore.Text
