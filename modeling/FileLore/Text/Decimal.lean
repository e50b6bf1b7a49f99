/-!
# Whole numbers in decimal

Writing whole numbers with the ten digits, and reading digits back.
-/

namespace FileLore.Text

/-- The digit for a value below ten. -/
def digitChar (n : Nat) : Char :=
  Char.ofNat (0x30 + n)

/-- The decimal digits of `n` in front of `rest`; `fuel` bounds how many are written. -/
def digitsOnto (fuel n : Nat) (rest : List Char) : List Char :=
  match fuel with
  | 0 => rest
  | fuel + 1 =>
    let shown := digitChar (n % 10) :: rest
    if n < 10 then shown else digitsOnto fuel (n / 10) shown

/-- The number in decimal, without leading zeros. A number has no more digits than `n + 1`. -/
def natText (n : Nat) : List Char :=
  digitsOnto (n + 1) n []

/-- The number in decimal, with a hyphen in front when it is negative. -/
def intText : Int → List Char
  | .ofNat n => natText n
  | .negSucc n => '-' :: natText (n + 1)

/-- The number in decimal with zeros in front up to the given width. -/
def paddedText (width n : Nat) : List Char :=
  let shown := natText n
  List.replicate (width - shown.length) '0' ++ shown

/-- The value of a decimal digit. -/
def digitValue? (c : Char) : Option Nat :=
  if '0' ≤ c && c ≤ '9' then some (c.toNat - 0x30) else none

/-- The number that digits in the given base spell, the first one counting most, when `start` is
the number spelled so far. -/
def valueOfDigits (base start : Nat) (digits : List Nat) : Nat :=
  digits.foldl (fun value digit => value * base + digit) start

/-- The number a text of decimal digits spells: at least one digit and nothing else. -/
def natOfText? (text : List Char) : Option Nat :=
  if text.isEmpty then none else (text.mapM digitValue?).map (valueOfDigits 10 0)

end FileLore.Text
