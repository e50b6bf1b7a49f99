import FileLore.Text.Decimal
import Mathlib.Data.Nat.Digits.Lemmas

/-!
# The digits of a number

A number is written as the characters of its digits (`natText_eq`), and its digits
give back the number (`valueOfDigits_decimalDigits`), with or without zeros in front
(`natOfText?_paddedText`). No number is written with a zero in front but zero itself,
whose only digit it is (`decimalDigits_zero_first`).
-/

namespace FileLore.Text

/-- The decimal digits of `n`, the one that counts most first; zero has a single digit. -/
def decimalDigits (n : Nat) : List Nat :=
  if n = 0 then [0] else (Nat.digits 10 n).reverse

theorem decimalDigits_of_lt {n : Nat} (h : n < 10) : decimalDigits n = [n] := by
  by_cases hzero : n = 0
  · rw [decimalDigits, if_pos hzero, hzero]
  · rw [decimalDigits, if_neg hzero, Nat.digits_of_lt 10 n hzero h, List.reverse_singleton]

/-- The last digit is what is left over from ten. -/
theorem decimalDigits_of_ge {n : Nat} (h : 10 ≤ n) :
    decimalDigits n = decimalDigits (n / 10) ++ [n % 10] := by
  have hn : n ≠ 0 := by omega
  have hfront : n / 10 ≠ 0 := by omega
  rw [decimalDigits, if_neg hn, decimalDigits, if_neg hfront, Nat.digits_def' (by decide)
    (Nat.pos_of_ne_zero hn), List.reverse_cons]

theorem decimalDigits_ne_nil (n : Nat) : decimalDigits n ≠ [] := by
  rw [decimalDigits]
  split
  · exact List.cons_ne_nil _ _
  · next h => simpa using Nat.digits_ne_nil_iff_ne_zero.mpr h

theorem decimalDigits_lt {n digit : Nat} (h : digit ∈ decimalDigits n) : digit < 10 := by
  rw [decimalDigits] at h
  split at h
  · rw [List.mem_singleton.mp h]
    decide
  · exact Nat.digits_lt_base (by decide) (List.mem_reverse.mp h)

/-- Only zero is written with a zero in front. -/
theorem decimalDigits_zero_first {n : Nat} {more : List Nat} (h : decimalDigits n = 0 :: more) :
    more = [] := by
  rw [decimalDigits] at h
  split at h
  · exact (List.cons.inj h).2.symm
  · next hn =>
    have hlast := Nat.getLast_digit_ne_zero 10 hn
    have hdigits : Nat.digits 10 n = more.reverse ++ [0] := by
      rw [← List.reverse_reverse (Nat.digits 10 n), h, List.reverse_cons]
    exact absurd (by simp [hdigits]) hlast

theorem valueOfDigits_decimalDigits (n : Nat) : valueOfDigits 10 0 (decimalDigits n) = n := by
  induction n using Nat.strongRecOn with
  | ind n ih =>
    by_cases hlt : n < 10
    · rw [decimalDigits_of_lt hlt]
      simp [valueOfDigits]
    · have hfront := ih (n / 10) (by omega)
      rw [valueOfDigits] at hfront
      rw [decimalDigits_of_ge (Nat.not_lt.mp hlt), valueOfDigits, List.foldl_append, hfront]
      simp only [List.foldl_cons, List.foldl_nil]
      omega

theorem digitValue?_digitChar : ∀ {digit : Nat}, digit < 10 →
    digitValue? (digitChar digit) = some digit := by
  decide

/-- A number is written digit by digit. -/
theorem natText_eq (n : Nat) : natText n = (decimalDigits n).map digitChar := by
  suffices hfuel : ∀ fuel n rest, n < fuel →
      digitsOnto fuel n rest = (decimalDigits n).map digitChar ++ rest by
    simpa [natText] using hfuel (n + 1) n [] (Nat.lt_succ_self n)
  intro fuel
  induction fuel with
  | zero => intro n rest h; exact absurd h (Nat.not_lt_zero n)
  | succ fuel ih =>
    intro n rest h
    rw [digitsOnto]
    by_cases hlt : n < 10
    · rw [if_pos hlt, decimalDigits_of_lt hlt, Nat.mod_eq_of_lt hlt]
      rfl
    · rw [if_neg hlt, ih _ _ (by omega), decimalDigits_of_ge (Nat.not_lt.mp hlt)]
      simp

/-! ## Reading back -/

theorem mapM_digitValue? : ∀ {digits : List Nat}, (∀ digit ∈ digits, digit < 10) →
    (digits.map digitChar).mapM digitValue? = some digits := by
  intro digits
  induction digits with
  | nil => exact fun _ => rfl
  | cons digit digits ih =>
    intro h
    rw [List.map_cons, List.mapM_cons, digitValue?_digitChar (h digit List.mem_cons_self),
      ih fun other hother => h other (List.mem_cons_of_mem _ hother)]
    rfl

theorem natText_ne_nil (n : Nat) : natText n ≠ [] := by
  rw [natText_eq, ne_eq, List.map_eq_nil_iff]
  exact decimalDigits_ne_nil n

/-- Zeros in front of a number make no difference. -/
theorem natOfText?_paddedText (width n : Nat) : natOfText? (paddedText width n) = some n := by
  have hpadded : paddedText width n =
      (List.replicate (width - (natText n).length) 0 ++ decimalDigits n).map digitChar := by
    rw [List.map_append, List.map_replicate, ← natText_eq]
    rfl
  have hdigits : ∀ digit ∈ List.replicate (width - (natText n).length) 0 ++ decimalDigits n,
      digit < 10 := by
    intro digit h
    rcases List.mem_append.mp h with hzero | hdigit
    · rw [List.eq_of_mem_replicate hzero]
      decide
    · exact decimalDigits_lt hdigit
  have hzeros (count : Nat) : valueOfDigits 10 0 (List.replicate count 0 ++ decimalDigits n) = n := by
    induction count with
    | zero => exact valueOfDigits_decimalDigits n
    | succ count ih => exact ih
  rw [natOfText?, if_neg, hpadded, mapM_digitValue? hdigits, Option.map_some, hzeros]
  rw [List.isEmpty_iff, paddedText, List.append_eq_nil_iff]
  exact fun h => natText_ne_nil n h.2

theorem natOfText?_natText (n : Nat) : natOfText? (natText n) = some n := by
  have hpadded : paddedText 0 n = natText n := by
    rw [paddedText, Nat.zero_sub]
    rfl
  rw [← hpadded, natOfText?_paddedText]

/-- A number has digits only. -/
theorem digit_of_mem_natText {n : Nat} {c : Char} (h : c ∈ natText n) :
    (digitValue? c).isSome := by
  rw [natText_eq] at h
  obtain ⟨digit, hdigit, rfl⟩ := List.mem_map.mp h
  rw [digitValue?_digitChar (decimalDigits_lt hdigit)]
  rfl

/-- Zeros in front are digits too. -/
theorem digit_of_mem_paddedText {width n : Nat} {c : Char} (h : c ∈ paddedText width n) :
    (digitValue? c).isSome := by
  rcases List.mem_append.mp h with hzero | hdigit
  · rw [List.eq_of_mem_replicate hzero]
    rfl
  · exact digit_of_mem_natText hdigit

theorem length_decimalDigits_le (places : Nat) : ∀ {n : Nat}, n < 10 ^ (places + 1) →
    (decimalDigits n).length ≤ places + 1 := by
  induction places with
  | zero =>
    intro n h
    rw [decimalDigits_of_lt h]
    exact Nat.le_refl 1
  | succ places ih =>
    intro n h
    by_cases hlt : n < 10
    · rw [decimalDigits_of_lt hlt]
      exact Nat.le_add_left 1 _
    · have hfront : n / 10 < 10 ^ (places + 1) := Nat.div_lt_of_lt_mul (by rwa [Nat.pow_succ'] at h)
      rw [decimalDigits_of_ge (Nat.not_lt.mp hlt), List.length_append]
      exact Nat.succ_le_succ (ih hfront)

/-- A number that fits has just the digits that it is given. -/
theorem length_paddedText {places n : Nat} (h : n < 10 ^ (places + 1)) :
    (paddedText (places + 1) n).length = places + 1 := by
  have hfits := length_decimalDigits_le places h
  rw [paddedText, List.length_append, List.length_replicate, natText_eq, List.length_map]
  omega

/-! ## Plain decimal -/

theorem digitChar_eq {digit : Nat} (h : digit < 10) : digitChar digit = digit.digitChar := by
  revert h
  revert digit
  decide

/-- Only its digit has a value below ten. -/
theorem digitValue?_eq_some_iff {c : Char} {digit : Nat} :
    digitValue? c = some digit ↔ digit < 10 ∧ c = digit.digitChar := by
  constructor
  · intro h
    rw [digitValue?] at h
    split at h
    next hrange =>
      rw [Bool.and_eq_true, decide_eq_true_eq, decide_eq_true_eq] at hrange
      have hlow : 0x30 ≤ c.toNat := hrange.1
      have hhigh : c.toNat ≤ 0x39 := hrange.2
      obtain rfl := Option.some.inj h
      have hdigit : c.toNat - 0x30 < 10 := by omega
      refine ⟨hdigit, ?_⟩
      rw [← digitChar_eq hdigit, digitChar, Nat.add_sub_cancel' hlow, Char.ofNat_toNat]
    next => cases h
  · rintro ⟨h, rfl⟩
    rw [← digitChar_eq h, digitValue?_digitChar h]

theorem mapM_digitValue?_eq_some_iff {text : List Char} : ∀ {digits : List Nat},
    text.mapM digitValue? = some digits ↔
      (∀ digit ∈ digits, digit < 10) ∧ text = digits.map Nat.digitChar := by
  induction text with
  | nil =>
    intro digits
    cases digits <;> simp
  | cons c text ih =>
    intro digits
    rw [List.mapM_cons]
    simp only [Option.bind_eq_bind, Option.bind_eq_some_iff, Option.pure_def, Option.some_inj,
      digitValue?_eq_some_iff, ih]
    constructor
    · rintro ⟨digit, ⟨hdigit, rfl⟩, more, ⟨hmore, rfl⟩, rfl⟩
      exact ⟨List.forall_mem_cons.mpr ⟨hdigit, hmore⟩, rfl⟩
    · rintro ⟨hall, htext⟩
      cases digits with
      | nil => cases htext
      | cons digit more =>
        obtain ⟨hdigit, hmore⟩ := List.forall_mem_cons.mp hall
        obtain ⟨hc, hrest⟩ := List.cons.inj htext
        exact ⟨digit, ⟨hdigit, hc⟩, more, ⟨hmore, hrest⟩, rfl⟩

theorem valueOfDigits_eq (digits : List Nat) :
    valueOfDigits 10 0 digits = Nat.ofDigits 10 digits.reverse := by
  rw [Nat.ofDigits_eq_foldr, List.foldr_reverse, valueOfDigits]
  congr 1
  funext value digit
  rw [Nat.cast_id, Nat.mul_comm, Nat.add_comm]

/-- **A text is a number** just if it is made of digits, of which there is at least one. -/
theorem natOfText?_eq_some_iff {text : List Char} {n : Nat} :
    natOfText? text = some n ↔ ∃ digits : List Nat, digits ≠ [] ∧ (∀ digit ∈ digits, digit < 10) ∧
      text = digits.map Nat.digitChar ∧ Nat.ofDigits 10 digits.reverse = n := by
  rw [natOfText?]
  split
  next hempty =>
    rw [List.isEmpty_iff] at hempty
    refine ⟨nofun, ?_⟩
    rintro ⟨digits, hne, -, htext, -⟩
    exact absurd (List.map_eq_nil_iff.mp (htext.symm.trans hempty)) hne
  next hfull =>
    rw [List.isEmpty_iff] at hfull
    rw [Option.map_eq_some_iff]
    constructor
    · rintro ⟨digits, hdigits, hn⟩
      obtain ⟨hlt, htext⟩ := mapM_digitValue?_eq_some_iff.mp hdigits
      refine ⟨digits, ?_, hlt, htext, (valueOfDigits_eq digits).symm.trans hn⟩
      rintro rfl
      exact hfull htext
    · rintro ⟨digits, -, hlt, htext, hn⟩
      exact ⟨digits, mapM_digitValue?_eq_some_iff.mpr ⟨hlt, htext⟩,
        (valueOfDigits_eq digits).trans hn⟩

theorem toDigits_eq (n : Nat) : Nat.toDigits 10 n = (decimalDigits n).map digitChar := by
  induction n using Nat.strongRecOn with
  | ind n ih =>
    by_cases hlt : n < 10
    · rw [Nat.toDigits_of_lt_base hlt, decimalDigits_of_lt hlt, List.map_singleton,
        digitChar_eq hlt]
    · have hge := Nat.not_lt.mp hlt
      rw [Nat.toDigits_of_base_le (by decide) hge, ih (n / 10) (by omega),
        decimalDigits_of_ge hge, List.map_append, List.map_singleton,
        digitChar_eq (Nat.mod_lt n (by decide))]

/-- Whole numbers are written in plain decimal. -/
theorem intText_eq (n : Int) : intText n = (toString n).toList := by
  rw [Int.toString_eq_repr, Int.repr_eq_if]
  cases n with
  | ofNat n =>
    have hsign : 0 ≤ Int.ofNat n := Int.natCast_nonneg n
    rw [if_pos hsign, Nat.toList_repr, toDigits_eq]
    exact natText_eq n
  | negSucc n =>
    rw [if_neg (Int.not_le.mpr (Int.negSucc_lt_zero n)), String.toList_append, Nat.toList_repr,
      toDigits_eq, Int.neg_negSucc]
    exact congrArg ('-' :: ·) (natText_eq (n + 1))

end FileLore.Text
