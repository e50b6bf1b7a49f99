import FileLore.Text.Blank
import FileLore.Text.Word

/-!
# Words

A word is what identifiers are made of, at least one character long. White space
is never part of one (`isWordChar_of_isBlank`).
-/

namespace FileLore.Text

variable {c : Char} {text : List Char}

/-- Whether the text is made of word characters, at least one. -/
structure IsWord (text : List Char) : Prop where
  ne_nil : text ≠ []
  chars : ∀ c ∈ text, isWordChar c = true

instance (text : List Char) : Decidable (IsWord text) :=
  decidable_of_iff (text ≠ [] ∧ text.all isWordChar = true)
    ⟨fun h => ⟨h.1, List.all_eq_true.mp h.2⟩, fun h => ⟨h.ne_nil, List.all_eq_true.mpr h.chars⟩⟩

/-- The code points of white space. -/
def blankCodes : List Nat :=
  [0x09, 0x0A, 0x0B, 0x0C, 0x0D, 0x20, 0x85, 0xA0, 0x1680, 0x2000, 0x2001, 0x2002, 0x2003, 0x2004,
    0x2005, 0x2006, 0x2007, 0x2008, 0x2009, 0x200A, 0x2028, 0x2029, 0x202F, 0x205F, 0x3000]

theorem toNat_mem_blankCodes (h : isBlank c = true) : c.toNat ∈ blankCodes := by
  simp only [isBlank, Bool.or_eq_true, Bool.and_eq_true, decide_eq_true_eq, beq_iff_eq] at h
  simp only [blankCodes, List.mem_cons, List.not_mem_nil, or_false]
  omega

/-- White space is no part of a word. -/
theorem isWordChar_of_isBlank (h : isBlank c = true) : isWordChar c = false := by
  have hall : ∀ n ∈ blankCodes, isWordChar (Char.ofNat n) = false := by decide +kernel
  have hcode := hall c.toNat (toNat_mem_blankCodes h)
  rwa [Char.ofNat_toNat] at hcode

theorem isBlank_of_isWordChar (h : isWordChar c = true) : isBlank c = false := by
  rw [Bool.eq_false_iff]
  intro hblank
  rw [isWordChar_of_isBlank hblank] at h
  cases h

end FileLore.Text
