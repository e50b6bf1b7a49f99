import FileLore.Text.LetterCase

/-!
# The cases of ASCII letters

Which characters are a given ASCII letter but for their case: the two cases of the
letter, the sign for kelvin for a K and the long s for an S (`isCaseOf_iff`). In
upper case the first two become the same capital (`upper_of_mem_spellings`).
-/

namespace FileLore.Text

/-- Whether a letter is one of the capitals of ASCII. -/
abbrev IsCapital (letter : Char) : Prop := 0x41 ≤ letter.toNat ∧ letter.toNat ≤ 0x5A

/-- The small letter of ASCII for a capital. -/
def small (letter : Char) : Char :=
  Char.ofNat (letter.toNat + 0x20)

/-- The sign for kelvin. -/
def kelvin : Char := '\u212a'

/-- The long s. -/
def longS : Char := '\u017f'

/-- The characters that differ from a capital of ASCII at most in case. -/
def spellings (letter : Char) : List Char :=
  letter :: small letter ::
    (if letter = 'K' then [kelvin] else if letter = 'S' then [longS] else [])

theorem mem_spellings_iff {letter c : Char} :
    c ∈ spellings letter ↔ c = letter ∨ c = small letter ∨ letter = 'K' ∧ c = kelvin ∨
      letter = 'S' ∧ c = longS := by
  unfold spellings
  by_cases hK : letter = 'K'
  · simp [hK]
  · by_cases hS : letter = 'S' <;> simp [hK, hS]

theorem toNat_ofNat {n : Nat} (h : n < 0xD800) : (Char.ofNat n).toNat = n := by
  rw [Char.ofNat, dif_pos (Or.inl h)]
  rfl

theorem toNat_ofNat_cases (n : Nat) : (Char.ofNat n).toNat = n ∨ (Char.ofNat n).toNat = 0 := by
  by_cases hvalid : n.isValidChar
  · left
    rw [Char.ofNat, dif_pos hvalid]
    rfl
  · right
    rw [Char.ofNat, dif_neg hvalid]
    rfl

theorem eq_of_toNat_eq {c d : Char} (h : c.toNat = d.toNat) : c = d := by
  rw [← Char.ofNat_toNat c, h, Char.ofNat_toNat]

theorem small_toNat {letter : Char} (h : IsCapital letter) :
    (small letter).toNat = letter.toNat + 0x20 := by
  have hsmall : letter.toNat + 0x20 < 0xD800 := by omega
  exact toNat_ofNat hsmall

/-- What holds of the characters of ASCII one by one holds of all of them. -/
theorem ascii_forall {P : Char → Prop} (h : ∀ n < 0x80, P (Char.ofNat n)) {c : Char}
    (hc : c.toNat < 0x80) : P c := by
  have hn := h c.toNat hc
  rwa [Char.ofNat_toNat] at hn

/-! ## Lower case -/

theorem lower_ascii {c : Char} (hc : c.toNat < 0x80) :
    lower c = [if IsCapital c then small c else c] := by
  have hall : ∀ n < 0x80, lower (Char.ofNat n) =
      [if IsCapital (Char.ofNat n) then small (Char.ofNat n) else Char.ofNat n] := by
    decide +kernel
  exact ascii_forall (P := fun c => lower c = [if IsCapital c then small c else c]) hall hc

/-- Only the sign for kelvin, of all letters outside ASCII, has a small letter of ASCII. -/
theorem lowerRuns_outside : ∀ run ∈ lowerRuns,
    run.first = 0x212A ∧ run.last = 0x212A ∨ 0x80 ≤ (run.first : Int) + run.shift := by
  decide +kernel

theorem shiftCase_lowerRuns {n : Nat} (h : 0x80 ≤ n) (hkelvin : n ≠ 0x212A) :
    0x80 ≤ shiftCase lowerRuns n := by
  unfold shiftCase
  split
  · next run hrun =>
    have hholds := List.find?_some hrun
    simp only [CaseRun.holds, Bool.and_eq_true, decide_eq_true_eq] at hholds
    obtain ⟨⟨hfirst, hlast⟩, -⟩ := hholds
    rcases lowerRuns_outside run (List.mem_of_find?_eq_some hrun) with ⟨hlow, hhigh⟩ | houtside
    · omega
    · simp only [Int.ofNat_eq_natCast]
      omega
  · exact h

/-- A character outside ASCII is no other case of one inside, unless it is the sign for kelvin. -/
theorem lower_outside {c d : Char} (hc : 0x80 ≤ c.toNat) (hkelvin : c ≠ kelvin)
    (hd : 0 < d.toNat) (hd' : d.toNat < 0x80) : lower c ≠ [d] := by
  intro h
  unfold lower at h
  rw [if_neg (by omega)] at h
  split at h
  · cases h
  · have hne : c.toNat ≠ 0x212A := fun heq => hkelvin (eq_of_toNat_eq heq)
    have houtside := shiftCase_lowerRuns hc hne
    have heq : Char.ofNat (shiftCase lowerRuns c.toNat) = d := (List.cons.inj h).1
    rw [← heq] at hd hd'
    rcases toNat_ofNat_cases (shiftCase lowerRuns c.toNat) with hcode | hcode
    · omega
    · omega

/-! ## Either case -/

/-- The cases of a capital that are in ASCII. -/
theorem isCaseOf_ascii {letter c : Char} (h : IsCapital letter) (hc : c.toNat < 0x80) :
    isCaseOf letter c = true ↔ c = letter ∨ c = small letter := by
  have hlong : (c.toNat == 0x17F) = false := by
    rw [beq_eq_false_iff_ne]
    omega
  have hsmall := small_toNat h
  unfold isCaseOf
  rw [hlong, Bool.false_and, Bool.or_false, beq_iff_eq, lower_ascii hc,
    lower_ascii (c := letter) (by omega), if_pos h, List.singleton_inj]
  by_cases hcapital : IsCapital c
  · rw [if_pos hcapital]
    have hother := small_toNat hcapital
    constructor
    · intro heq
      rw [heq] at hother
      exact Or.inl (eq_of_toNat_eq (by omega))
    · rintro (rfl | rfl)
      · rfl
      · omega
  · rw [if_neg hcapital]
    exact ⟨Or.inr, fun heq => heq.resolve_left fun heq => hcapital (heq ▸ h)⟩

/-- The cases of a capital among the two letters outside ASCII that can be one. -/
theorem isCaseOf_foreign {letter : Char} (h : IsCapital letter) :
    (isCaseOf letter kelvin = true ↔ letter = 'K') ∧
      (isCaseOf letter longS = true ↔ letter = 'S') := by
  have hall : ∀ m < 0x80, IsCapital (Char.ofNat m) →
      (isCaseOf (Char.ofNat m) kelvin = true ↔ Char.ofNat m = 'K') ∧
        (isCaseOf (Char.ofNat m) longS = true ↔ Char.ofNat m = 'S') := by
    decide +kernel
  exact ascii_forall (P := fun letter => IsCapital letter →
    (isCaseOf letter kelvin = true ↔ letter = 'K') ∧
      (isCaseOf letter longS = true ↔ letter = 'S')) hall (by omega) h

/-- **The cases of a capital** are it, its small letter and what else has that small letter. -/
theorem isCaseOf_iff {letter c : Char} (h : IsCapital letter) :
    isCaseOf letter c = true ↔ c ∈ spellings letter := by
  have hsmall := small_toNat h
  obtain ⟨hforK, hforS⟩ := isCaseOf_foreign h
  rw [mem_spellings_iff]
  by_cases hc : c.toNat < 0x80
  · have hkelvin : c ≠ kelvin := fun heq => absurd (heq ▸ hc) (by decide)
    have hlongS : c ≠ longS := fun heq => absurd (heq ▸ hc) (by decide)
    simp [isCaseOf_ascii h hc, hkelvin, hlongS]
  have hletter : c ≠ letter := fun heq => hc (by rw [heq]; omega)
  have hother : c ≠ small letter := fun heq => hc (by rw [heq]; omega)
  by_cases hkelvin : c = kelvin
  · subst hkelvin
    simp [hletter, hother, hforK, show kelvin ≠ longS by decide]
  by_cases hlongS : c = longS
  · subst hlongS
    simp [hletter, hother, hforS, hkelvin]
  have hcode : (c.toNat == 0x17F) = false := by
    rw [beq_eq_false_iff_ne]
    exact fun heq => hlongS (eq_of_toNat_eq heq)
  have hlower : lower c ≠ lower letter := by
    rw [lower_ascii (c := letter) (by omega), if_pos h]
    exact lower_outside (by omega) hkelvin (by omega) (by omega)
  simp [isCaseOf, hcode, hlower, hletter, hother, hkelvin, hlongS]

/-! ## Texts in lower case -/

/-- Which characters become a given small letter, other than that of a K or an S. -/
theorem lower_eq_iff {letter c : Char} (h : IsCapital letter) (hK : letter ≠ 'K')
    (hS : letter ≠ 'S') : lower c = [small letter] ↔ c = letter ∨ c = small letter := by
  have hletter : lower letter = [small letter] := by
    rw [lower_ascii (by omega), if_pos h]
  have hsmall : small letter ≠ 's' := by
    intro heq
    have hcode := small_toNat h
    rw [heq] at hcode
    exact hS (eq_of_toNat_eq (Nat.add_right_cancel (m := 0x20) hcode.symm))
  have hcase : isCaseOf letter c = true ↔ lower c = [small letter] := by
    simp [isCaseOf, hletter, hsmall]
  rw [← hcase, isCaseOf_iff h, mem_spellings_iff]
  simp [hK, hS]

/-- A character becomes one in lower case, apart from the capital i with a dot. -/
theorem lower_eq_singleton_or (c : Char) :
    (∃ d, lower c = [d]) ∨ lower c = ['i', Char.ofNat 0x307] := by
  rw [lower]
  split
  · exact .inl ⟨_, rfl⟩
  · split
    · exact .inr rfl
    · exact .inl ⟨_, rfl⟩

theorem lowerText_ne_nil (c : Char) (rest : List Char) : lowerText (c :: rest) ≠ [] := by
  show lower c ++ lowerText rest ≠ []
  rcases lower_eq_singleton_or c with ⟨d, hc⟩ | hc
  · rw [hc]
    exact List.cons_ne_nil _ _
  · rw [hc]
    exact List.cons_ne_nil _ _

/-- A text in lower case comes from a text character by character. -/
theorem lowerText_eq_cons_iff {text more : List Char} {d : Char} (hd : d ≠ 'i') :
    lowerText text = d :: more ↔
      ∃ c rest, text = c :: rest ∧ lower c = [d] ∧ lowerText rest = more := by
  constructor
  · intro h
    cases text with
    | nil => cases h
    | cons c rest =>
      have hsplit : lower c ++ lowerText rest = d :: more := h
      rcases lower_eq_singleton_or c with ⟨other, hc⟩ | hc
      · rw [hc] at hsplit
        obtain ⟨rfl, hrest⟩ := List.cons.inj hsplit
        exact ⟨c, rest, rfl, hc, hrest⟩
      · rw [hc] at hsplit
        exact absurd (List.cons.inj hsplit).1.symm hd
  · rintro ⟨c, rest, rfl, hc, rfl⟩
    show lower c ++ lowerText rest = _
    rw [hc]
    rfl

/-! ## Upper case -/

/-- In upper case the two letters of ASCII become the capital. -/
theorem upper_of_mem_spellings {letter c : Char} (h : IsCapital letter) (hc : c ∈ spellings letter)
    (hascii : c.toNat < 0x80) : upper c = [letter] := by
  have hall : ∀ m < 0x80, IsCapital (Char.ofNat m) →
      upper (Char.ofNat m) = [Char.ofNat m] ∧ upper (small (Char.ofNat m)) = [Char.ofNat m] := by
    decide +kernel
  obtain ⟨hcapital, hsmall⟩ := ascii_forall (P := fun letter => IsCapital letter →
    upper letter = [letter] ∧ upper (small letter) = [letter]) hall (by omega) h
  rcases mem_spellings_iff.mp hc with rfl | rfl | ⟨-, rfl⟩ | ⟨-, rfl⟩
  · exact hcapital
  · exact hsmall
  · exact absurd hascii (by decide)
  · exact absurd hascii (by decide)

end FileLore.Text
