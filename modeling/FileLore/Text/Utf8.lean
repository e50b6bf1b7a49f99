/-!
# Bytes as text

Texts are stored as UTF-8. Bytes that are no UTF-8 can still be shown: every
maximal ill-formed part, which is what of a well-formed character stands there
before the first byte that cannot continue it, becomes one replacement character.
-/

namespace FileLore.Text

/-- The character shown for bytes that are no text. -/
def replacement : Char := Char.ofNat 0xFFFD

/-- What a leading byte promises: how many bytes follow it, and the bounds of the first of them.
The bounds shut out overlong forms, surrogates and what lies above the last code point. -/
def promised? (lead : Nat) : Option (Nat × Nat × Nat) :=
  if 0xC2 ≤ lead && lead ≤ 0xDF then some (1, 0x80, 0xBF)
  else if lead == 0xE0 then some (2, 0xA0, 0xBF)
  else if lead == 0xED then some (2, 0x80, 0x9F)
  else if 0xE1 ≤ lead && lead ≤ 0xEF then some (2, 0x80, 0xBF)
  else if lead == 0xF0 then some (3, 0x90, 0xBF)
  else if 0xF1 ≤ lead && lead ≤ 0xF3 then some (3, 0x80, 0xBF)
  else if lead == 0xF4 then some (3, 0x80, 0x8F)
  else none

/-- The value bits of a leading byte that `following` bytes follow. -/
def leadValue (following lead : Nat) : Nat :=
  if following == 1 then lead % 0x20 else if following == 2 then lead % 0x10 else lead % 0x08

/-- A character that has been begun: the bytes still to come, the bounds of the next one, and the
value so far. -/
structure Unfinished where
  missing : Nat
  low : Nat
  high : Nat
  value : Nat

/-- Reads bytes as characters. `open?` is the character that the bytes before have begun. -/
def lossyFrom (open? : Option Unfinished) : List UInt8 → List Char
  | [] => if open?.isSome then [replacement] else []
  | byte :: rest =>
    let n := byte.toNat
    let fresh (before : List Char) : List Char :=
      if n < 0x80 then before ++ Char.ofNat n :: lossyFrom none rest
      else
        match promised? n with
        | some (following, low, high) =>
          before ++ lossyFrom (some ⟨following, low, high, leadValue following n⟩) rest
        | none => before ++ replacement :: lossyFrom none rest
    match open? with
    | none => fresh []
    | some u =>
      if u.low ≤ n && n ≤ u.high then
        let value := u.value * 0x40 + n % 0x40
        if u.missing ≤ 1 then Char.ofNat value :: lossyFrom none rest
        else lossyFrom (some ⟨u.missing - 1, 0x80, 0xBF, value⟩) rest
      else fresh [replacement]

/-- The bytes as text, with a replacement character for each ill-formed part. -/
def lossyText (bytes : ByteArray) : String :=
  match String.fromUTF8? bytes with
  | some text => text
  | none => String.ofList (lossyFrom none bytes.toList)

/-- Reading what has been written as UTF-8 gives back the text. -/
theorem fromUTF8?_toUTF8 (text : String) : String.fromUTF8? text.toUTF8 = some text := by
  unfold String.fromUTF8?
  split
  · rfl
  · next h => exact absurd text.isValidUTF8 (by simpa using h)

/-- A text shown from its own bytes is itself. -/
theorem lossyText_toUTF8 (text : String) : lossyText text.toUTF8 = text := by
  rw [lossyText, fromUTF8?_toUTF8]

end FileLore.Text
