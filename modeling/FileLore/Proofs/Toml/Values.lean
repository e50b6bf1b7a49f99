import FileLore.Proofs.Text.Decimal
import FileLore.Proofs.Toml.Strings
import FileLore.Toml.Reader

/-!
# Values are read as they were written

A text and a whole number, as they are written behind the sign of a setting, are read
as what they are (`isWritten_stringText`, `isWritten_natText`), whatever line comes
next. A text shows by its first quote what it is; digits could also begin a date, a
time of day or a number with a point, but none of these goes on with the end of a
line, and a number that is too large for a whole number is not written at all.
-/

namespace FileLore.Toml

open Text

/-- Whether a written text is read as a value that reaches up to the end of its line, whatever space
stands before it. -/
def IsWritten (shown : List Char) (value : Toml) : Prop :=
  ∀ (fuel depth : Nat) (rest : List Char),
    value? (fuel + 1) depth (skipSpace (shown ++ '\n' :: rest)) = some (value, '\n' :: rest)

theorem skipSpace_cons {c : Char} (h : (c == ' ' || c == '\t') = false) (rest : List Char) :
    skipSpace (c :: rest) = c :: rest := by
  unfold skipSpace
  rw [List.dropWhile_cons_of_neg]
  rw [h]
  exact Bool.false_ne_true

/-! ## Texts -/

/-- A string shows by its first character what it is. -/
theorem writtenAs_head (form : StringForm) (text : List Char) :
    ∃ tail, writtenAs form text = '"' :: tail ∨ writtenAs form text = '\'' :: tail := by
  cases form with
  | basic => exact ⟨_, Or.inl rfl⟩
  | literal => exact ⟨_, Or.inr rfl⟩
  | basicLines => exact ⟨_, Or.inl rfl⟩
  | literalLines => exact ⟨_, Or.inr rfl⟩

theorem endsQuotes_lineEnd {quote : Char} (h : '\n' ≠ quote) (rest : List Char) :
    EndsQuotes quote ('\n' :: rest) :=
  fun heq => h (Option.some.inj heq)

/-- **A text is read as it was written.** -/
theorem isWritten_stringText (text : String) : IsWritten (stringText text) (.string text) := by
  intro fuel depth rest
  have hread := string?_stringText text (endsQuotes_lineEnd (by decide) rest)
    (endsQuotes_lineEnd (by decide) rest)
  obtain ⟨tail, htail⟩ := writtenAs_head (formOf text.toList) text.toList
  have hvalue : value? (fuel + 1) depth (skipSpace (stringText text ++ '\n' :: rest)) =
      (string? (stringText text ++ '\n' :: rest)).map fun found =>
        (.string (String.ofList found.1), found.2) := by
    unfold stringText
    rcases htail with heq | heq
    · rw [heq, List.cons_append, skipSpace_cons rfl]
      rfl
    · rw [heq, List.cons_append, skipSpace_cons rfl]
      rfl
  rw [hvalue, hread]
  show some (Toml.string (String.ofList text.toList), _) = _
  rw [String.ofList_toList]

/-! ## Whole numbers -/

/-- Digits in front of a line end. -/
def digitLine (digits : List Nat) (rest : List Char) : List Char :=
  digits.map digitChar ++ '\n' :: rest

variable {digits : List Nat}

/-- Digits in front of a line end begin with nothing but a digit or that line end. -/
theorem digitLine_ne_cons (hlt : ∀ digit ∈ digits, digit < 10) (rest : List Char) {c : Char}
    (hline : '\n' ≠ c) (hc : digitValue? c = none) (tail : List Char) :
    digitLine digits rest ≠ c :: tail := by
  intro heq
  cases digits with
  | nil => exact hline (List.cons.inj heq).1
  | cons digit more =>
    have hdigit := digitValue?_digitChar (hlt digit (List.mem_cons_self ..))
    rw [(List.cons.inj heq).1, hc] at hdigit
    cases hdigit

theorem skipSpace_digitLine (hlt : ∀ digit ∈ digits, digit < 10) (rest : List Char) :
    skipSpace (digitLine digits rest) = digitLine digits rest := by
  have hspace : ∀ digit < 10, (digitChar digit == ' ' || digitChar digit == '\t') = false := by
    decide
  cases digits with
  | nil => rfl
  | cons digit more => exact skipSpace_cons (hspace digit (hlt digit (List.mem_cons_self ..))) _

theorem expect?_digitLine (hlt : ∀ digit ∈ digits, digit < 10) (rest : List Char) {c : Char}
    (hline : '\n' ≠ c) (hc : digitValue? c = none) : expect? c (digitLine digits rest) = none := by
  unfold expect?
  split
  · next d tail heq =>
    refine if_neg fun hd => ?_
    subst hd
    exact digitLine_ne_cons hlt rest hline hc tail heq
  · rfl

/-- A fixed number of digits leaves digits in front of the line end, if there are so many. -/
theorem fixedDigits?_digitLine (rest : List Char) :
    ∀ (count value : Nat) {digits : List Nat}, (∀ digit ∈ digits, digit < 10) →
      fixedDigits? count value (digitLine digits rest) = none ∨
      ∃ n others, (∀ digit ∈ others, digit < 10) ∧
        fixedDigits? count value (digitLine digits rest) = some (n, digitLine others rest) := by
  intro count
  induction count with
  | zero => intro value digits hlt; exact Or.inr ⟨value, digits, hlt, rfl⟩
  | succ count ih =>
    intro value digits hlt
    cases digits with
    | nil => exact Or.inl rfl
    | cons digit more =>
      have hdigit := digitValue?_digitChar (hlt digit (List.mem_cons_self ..))
      have hstep : fixedDigits? (count + 1) value (digitLine (digit :: more) rest) =
          fixedDigits? count (value * 10 + digit) (digitLine more rest) := by
        show fixedDigits? (count + 1) value (digitChar digit :: digitLine more rest) = _
        rw [fixedDigits?, hdigit]
      rw [hstep]
      exact ih _ fun other hother => hlt other (List.mem_cons_of_mem _ hother)

/-- Digits in front of a line end are no date. -/
theorem date?_digitLine (hlt : ∀ digit ∈ digits, digit < 10) (rest : List Char) :
    date? (digitLine digits rest) = none := by
  have hday : dayPart? (digitLine digits rest) = none := by
    unfold dayPart?
    rcases fixedDigits?_digitLine rest 4 0 hlt with hnone | ⟨n, others, hothers, hsome⟩
    · rw [hnone]
      rfl
    · rw [hsome]
      show (expect? '-' (digitLine others rest)).bind _ = none
      rw [expect?_digitLine hothers rest (by decide) rfl]
      rfl
  have htime : timePart? (digitLine digits rest) = none := by
    unfold timePart?
    rcases fixedDigits?_digitLine rest 2 0 hlt with hnone | ⟨n, others, hothers, hsome⟩
    · rw [hnone]
      rfl
    · rw [hsome]
      show (expect? ':' (digitLine others rest)).bind _ = none
      rw [expect?_digitLine hothers rest (by decide) rfl]
      rfl
  unfold date?
  rw [hday, htime]
  rfl

theorem sign_digitLine (hlt : ∀ digit ∈ digits, digit < 10) (rest : List Char) :
    sign (digitLine digits rest) = (false, digitLine digits rest) := by
  unfold sign
  split
  · next heq => exact absurd heq (digitLine_ne_cons hlt rest (by decide) rfl _)
  · next heq => exact absurd heq (digitLine_ne_cons hlt rest (by decide) rfl _)
  · rfl

theorem digitIn?_digitChar : ∀ {digit : Nat}, digit < 10 →
    digitIn? 10 (digitChar digit) = some digit := by
  decide

theorem moreDigits_digitLine (rest : List Char) : ∀ {digits : List Nat},
    (∀ digit ∈ digits, digit < 10) →
      moreDigits 10 (digitLine digits rest) = (digits, '\n' :: rest) := by
  intro digits
  induction digits with
  | nil => intro _; rfl
  | cons digit more ih =>
    intro hlt
    have hline := digitLine_ne_cons hlt rest (c := '_') (by decide) rfl
    have hdigit := digitIn?_digitChar (hlt digit (List.mem_cons_self ..))
    have hmore := ih fun other hother => hlt other (List.mem_cons_of_mem _ hother)
    show moreDigits 10 (digitChar digit :: digitLine more rest) = _
    unfold moreDigits
    split
    · next heq => cases heq
    · next heq => exact absurd heq (hline _)
    · next heq =>
      obtain ⟨hc, hrest⟩ := List.cons.inj heq
      subst hc hrest
      rw [hdigit, hmore]

/-- The digits of a number are read up to the end of the line. -/
theorem wholeDigits?_digitLine (n : Nat) (rest : List Char) :
    wholeDigits? (digitLine (decimalDigits n) rest) = some (decimalDigits n, '\n' :: rest) := by
  have hlt : ∀ digit ∈ decimalDigits n, digit < 10 := fun digit h => decimalDigits_lt h
  have hzero : ∀ more, decimalDigits n = 0 :: more → more = [] := fun more h =>
    decimalDigits_zero_first h
  obtain ⟨digit, more, hdigits⟩ := List.exists_cons_of_ne_nil (decimalDigits_ne_nil n)
  rw [hdigits] at hlt hzero ⊢
  have hdigit := digitIn?_digitChar (hlt digit (List.mem_cons_self ..))
  have hmore := moreDigits_digitLine rest fun other hother =>
    hlt other (List.mem_cons_of_mem _ hother)
  show wholeDigits? (digitChar digit :: digitLine more rest) = _
  unfold wholeDigits?
  split
  · next heq =>
    -- A zero stands alone, so that the line ends behind it.
    obtain ⟨hc, htail⟩ := List.cons.inj heq
    rw [hc] at hdigit
    cases hdigit
    obtain rfl := hzero more rfl
    rw [← htail]
    rfl
  · show digits? 10 (digitChar digit :: digitLine more rest) = _
    unfold digits?
    dsimp only
    rw [hdigit, hmore]

theorem decimal?_digitLine (n : Nat) (rest : List Char) :
    decimal? (digitLine (decimalDigits n) rest) = none := by
  have hlt : ∀ digit ∈ decimalDigits n, digit < 10 := fun digit h => decimalDigits_lt h
  unfold decimal?
  rw [sign_digitLine hlt]
  show (wholeDigits? (digitLine (decimalDigits n) rest)).bind _ = none
  rw [wholeDigits?_digitLine]
  rfl

theorem special?_digitLine (hlt : ∀ digit ∈ digits, digit < 10) (rest : List Char) :
    special? (digitLine digits rest) = none := by
  unfold special?
  rw [sign_digitLine hlt]
  dsimp only
  split
  · next heq => exact absurd heq (digitLine_ne_cons hlt rest (by decide) rfl _)
  · next heq => exact absurd heq (digitLine_ne_cons hlt rest (by decide) rfl _)
  · rfl

theorem integer?_digitLine {n : Nat} (h : n ≤ greatestInteger) (rest : List Char) :
    integer? (digitLine (decimalDigits n) rest) = some (.integer (Int.ofNat n), '\n' :: rest) := by
  have hlt : ∀ digit ∈ decimalDigits n, digit < 10 := fun digit h => decimalDigits_lt h
  have hvalue : integerOf? false 10 (decimalDigits n) = some (.integer (Int.ofNat n)) := by
    unfold integerOf?
    rw [valueOfDigits_decimalDigits]
    exact if_pos h
  -- Behind the first digit there is no mark of another base either.
  have hbase {c : Char} (hline : '\n' ≠ c) (hc : digitValue? c = none) (tail : List Char) :
      digitLine (decimalDigits n) rest ≠ '0' :: c :: tail := by
    obtain ⟨digit, more, hdigits⟩ := List.exists_cons_of_ne_nil (decimalDigits_ne_nil n)
    rw [hdigits] at hlt ⊢
    intro heq
    exact digitLine_ne_cons (fun other hother => hlt other (List.mem_cons_of_mem _ hother)) rest
      hline hc tail (List.cons.inj heq).2
  unfold integer?
  dsimp only
  split
  · next heq => exact absurd heq (hbase (by decide) rfl _)
  · next heq => exact absurd heq (hbase (by decide) rfl _)
  · next heq => exact absurd heq (hbase (by decide) rfl _)
  · rw [sign_digitLine hlt]
    show (wholeDigits? (digitLine (decimalDigits n) rest)).bind _ = _
    rw [wholeDigits?_digitLine]
    show (integerOf? false 10 (decimalDigits n)).bind _ = _
    rw [hvalue]
    rfl

/-- **A whole number is read as it was written**, if it is one that a value can be. -/
theorem isWritten_natText {n : Nat} (h : n ≤ greatestInteger) :
    IsWritten (natText n) (.integer (Int.ofNat n)) := by
  intro fuel depth rest
  have hlt : ∀ digit ∈ decimalDigits n, digit < 10 := fun digit h => decimalDigits_lt h
  have hscalar : scalar? (digitLine (decimalDigits n) rest) =
      some (.integer (Int.ofNat n), '\n' :: rest) := by
    unfold scalar?
    split
    · next heq => exact absurd heq (digitLine_ne_cons hlt rest (by decide) rfl _)
    · next heq => exact absurd heq (digitLine_ne_cons hlt rest (by decide) rfl _)
    · rw [date?_digitLine hlt, decimal?_digitLine, special?_digitLine hlt, integer?_digitLine h]
      rfl
  rw [natText_eq]
  show value? (fuel + 1) depth (skipSpace (digitLine (decimalDigits n) rest)) = _
  rw [skipSpace_digitLine hlt]
  unfold value?
  split
  · next heq => exact absurd heq (digitLine_ne_cons hlt rest (by decide) rfl _)
  · next heq => exact absurd heq (digitLine_ne_cons hlt rest (by decide) rfl _)
  · next heq => exact absurd heq (digitLine_ne_cons hlt rest (by decide) rfl _)
  · next heq => exact absurd heq (digitLine_ne_cons hlt rest (by decide) rfl _)
  · exact hscalar

end FileLore.Toml
