import FileLore.Json.Spelling
import FileLore.Json.Value

/-!
# Reading JSON: the meaning

The value that a spelling stands for. It has one only if every string in it
spells a text, every number is in range, and values are nested less than 128
deep; of several members of one name the last holds.

Numbers without point and power are whole as far as 64 bits reach. All others
are worked out in double precision from the digits that fit into 64 bits and a
power of ten, which takes one multiplication or division, so the last bit may
differ from the nearest number's.
-/

namespace FileLore

open Text

namespace Json.NumberSpelling

/-- The largest whole number of 64 bits. -/
def greatestWhole : Nat := Nat.pow 2 64 - 1

/-- The largest power of ten that is counted. -/
def greatestPower : Nat := Nat.pow 2 31 - 1

/-- Reads further digits into a number of 64 bits as long as they fit. The digits from the first
one on that does not are returned unread. -/
def fill (value : Nat) : List Nat → Nat × List Nat
  | [] => (value, [])
  | digit :: rest =>
    let next := value * 10 + digit
    if next ≤ greatestWhole then fill next rest else (value, digit :: rest)

/-- The digits of the number as far as 64 bits hold them, and the power of ten that they are to be
multiplied by: digits before the point that do not fit count as zeros, and of those after it none is
used from the first one on that does not fit. -/
def scaled (number : NumberSpelling) : Nat × Int :=
  let (value, unread) := fill 0 number.whole
  let digits := number.fraction.getD []
  let (filled, dropped) := fill value digits
  (filled, Int.ofNat unread.length - Int.ofNat (digits.length - dropped.length))

/-- A power of ten as a number of double precision, for powers up to 308. -/
def tenTo (power : Nat) : Magnitude :=
  (Magnitude.ofRatio? (Nat.pow 10 power) 1).getD Magnitude.zero

/-- The magnitude divided by `10 ^ 308` as long as `power` is below what one division can do; zero
stays zero. -/
def divideDown : Nat → Nat → Magnitude → Option Magnitude
  | 0, _, x => some x
  | fuel + 1, power, x =>
    if power ≤ 308 then x.div? (tenTo power)
    else if x.mantissa = 0 then some x
    else
      match x.div? (tenTo 308) with
      | some y => divideDown fuel (power - 308) y
      | none => none

/-- `value · 10 ^ power` in double precision; none if it is too large. -/
def magnitude? (value : Nat) (power : Int) : Option Magnitude :=
  match Magnitude.ofRatio? value 1 with
  | none => none
  | some x =>
    if power < 0 then divideDown (power.natAbs + 1) power.natAbs x
    else if power ≤ 308 then x.mul? (tenTo power.toNat)
    else if x.mantissa = 0 then some x
    else none

/-- The number in double precision; none if it is too large. A power of ten beyond all counting
leaves zero or nothing. -/
def float? (number : NumberSpelling) : Option Binary64 :=
  let (value, shift) := number.scaled
  let magnitude :=
    match number.power with
    | none => magnitude? value shift
    | some (down, digits) =>
      let power := valueOfDigits 10 0 digits
      if greatestPower < power then
        if value != 0 && !down then none else some Magnitude.zero
      else magnitude? value (if down then shift - Int.ofNat power else shift + Int.ofNat power)
  magnitude.map fun m => ⟨number.negative, m⟩

/-- The number that is spelled; none if it is out of range. A whole number may reach from the least
signed to the greatest unsigned number of 64 bits; minus zero is not whole. -/
def value? (number : NumberSpelling) : Option Number :=
  let value := valueOfDigits 10 0 number.whole
  let whole := number.fraction.isNone && number.power.isNone
  if whole && !number.negative && value ≤ greatestWhole then some (.integer value)
  else if whole && number.negative && 0 < value && value ≤ Nat.pow 2 63 then
    some (.integer (-Int.ofNat value))
  else number.float?.map .float

/-- The number, if it is spelled as a whole one that 64 bits hold without a sign. -/
def unsigned? (number : NumberSpelling) : Option Nat :=
  match number.value? with
  | some (.integer (.ofNat n)) => some n
  | _ => none

end Json.NumberSpelling

namespace Json

/-- How deep values may be nested. -/
def greatestDepth : Nat := 127

mutual

/-- The value that a spelling stands for, if it is nested at most `depth` deep. -/
def ofSpelling? (depth : Nat) : Spelling → Option Json
  | .null => some .null
  | .bool value => some (.bool value)
  | .number value => value.value?.map .number
  | .string value => value.map .string
  | .array items =>
    match depth with
    | 0 => none
    | depth + 1 => (ofItems? depth items).map .array
  | .object members =>
    match depth with
    | 0 => none
    | depth + 1 => (ofMembers? depth members).map ofMembers

/-- The values of the items. -/
def ofItems? (depth : Nat) : List Spelling → Option (List Json)
  | [] => some []
  | item :: rest => do
    let value ← ofSpelling? depth item
    let values ← ofItems? depth rest
    return value :: values

/-- The values of the members, in the order of the text. -/
def ofMembers? (depth : Nat) : List (Option String × Spelling) → Option Members
  | [] => some []
  | (name, value) :: rest => do
    let name ← name
    let value ← ofSpelling? depth value
    let members ← ofMembers? depth rest
    return (name, value) :: members

end

/-- The value that a text stands for. -/
def ofText? (text : String) : Option Json :=
  (Spelling.ofText? text.toList).bind (ofSpelling? greatestDepth)

end Json

/-- The number that a text stands for. -/
def Number.ofText? (text : String) : Option Number :=
  match Json.Spelling.ofText? text.toList with
  | some (.number number) => number.value?
  | _ => none

end FileLore
