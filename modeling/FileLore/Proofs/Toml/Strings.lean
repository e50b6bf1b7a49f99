import FileLore.Toml.Scalar
import FileLore.Toml.Writer

/-!
# Strings are read as they were written

A text is written in one of four forms, and whatever characters it holds, the reader
takes the form for what it is and gives the text back (`string?_stringText`).

The two forms with escapes can hold every text (`basicString?_escaped`,
`basicLines?_escaped`); the two without hold the text as it is, so they are read back
only because the form that is chosen suits the text (`formOf_suits`). In the forms with
lines the text may end in quotes, and these stand right before the three that close it.
That there are never more than two in a row is what both proofs carry along: three
quotes in the middle would close the string, and more than five at the end would not
close it at all.
-/

namespace FileLore.Toml

open Text

/-! ## Characters -/

/-- A character of a line begins no line end. -/
theorem lineEnd?_of_isPlain {c : Char} (h : isPlain c = true) (rest : List Char) :
    lineEnd? (c :: rest) = none := by
  unfold lineEnd?
  split
  · next heq => cases heq; cases h
  · next heq => cases heq; cases h
  · rfl

/-- Digits that make up a number do so whatever stands behind them. -/
theorem hexDigits?_append {n : Nat} (rest : List Char) :
    ∀ {count value : Nat} {digits : List Char}, hexDigits? count value digits = some (n, []) →
      hexDigits? count value (digits ++ rest) = some (n, rest) := by
  intro count
  induction count with
  | zero =>
    intro value digits h
    unfold hexDigits? at h ⊢
    cases h
    rfl
  | succ count ih =>
    intro value digits h
    cases digits with
    | nil => cases h
    | cons c more =>
      rw [List.cons_append]
      unfold hexDigits? at h ⊢
      cases hdigit : hexValue? c with
      | none => rw [hdigit] at h; cases h
      | some digit => rw [hdigit] at h; exact ih h

/-- A control character is named by the digits that it is escaped with. -/
theorem escape?_hexFour {c : Char} (h : c.toNat < 0x80) (rest : List Char) :
    escape? ('u' :: (hexFour 'A' c.toNat ++ rest)) = some (c, rest) := by
  have hread : ∀ n < 0x80, hexDigits? 4 0 (hexFour 'A' n) = some (n, []) := by
    decide
  have hscalar : isScalar c.toNat = true := by
    unfold isScalar
    simp only [Bool.or_eq_true, decide_eq_true_eq]
    omega
  show codePoint? 4 (hexFour 'A' c.toNat ++ rest) = some (c, rest)
  unfold codePoint?
  rw [hexDigits?_append rest (hread c.toNat h)]
  simp only [hscalar, if_true, Char.ofNat_toNat]

/-- How a character that is no double quote stands in a string with escapes: as it is, as an escape,
or as the end of a line. -/
inductive Stands (lines : Bool) (c : Char) : List Char → Prop where
  | plain (hplain : isPlain c = true) (hslash : c ≠ '\\') : Stands lines c [c]
  | escape {code : List Char} (h : ∀ rest, escape? (code ++ rest) = some (c, rest)) :
    Stands lines c ('\\' :: code)
  | lineEnd (hlines : lines = true) (hend : c = '\n') : Stands lines c ['\n']

theorem Stands.length_pos {lines : Bool} {c : Char} {shown : List Char} (h : Stands lines c shown) :
    0 < shown.length := by
  cases h <;> exact Nat.succ_pos _

theorem stands_escapedChar (lines : Bool) (c : Char) : Stands lines c (escapedChar lines c) := by
  unfold escapedChar
  split
  · next h => subst h; exact .escape fun _ => rfl
  split
  · next h => subst h; exact .escape fun _ => rfl
  split
  · next h =>
    subst h
    cases lines with
    | true => exact .lineEnd rfl rfl
    | false => exact .escape fun _ => rfl
  split
  · next h => subst h; exact .escape fun _ => rfl
  split
  · next h => subst h; exact .escape fun _ => rfl
  split
  · next h => subst h; exact .escape fun _ => rfl
  next hslash =>
  split
  · next h =>
    refine .escape fun rest => escape?_hexFour ?_ rest
    simp only [Bool.or_eq_true, decide_eq_true_eq, beq_iff_eq] at h
    omega
  · next h =>
    refine .plain ?_ hslash
    simp only [Bool.or_eq_true, decide_eq_true_eq, beq_iff_eq] at h
    unfold isPlain
    simp only [Bool.or_eq_true, Bool.and_eq_true, decide_eq_true_eq, bne_iff_ne]
    omega

/-! ## Strings on one line -/

theorem basicString?_stands {c : Char} {shown : List Char} (h : Stands false c shown)
    (hquote : c ≠ '"') (fuel : Nat) (tail : List Char) :
    basicString? (fuel + 1) (shown ++ tail) =
      (basicString? fuel tail).map fun (text, rest) => (c :: text, rest) := by
  cases h with
  | plain hplain hslash =>
    show basicString? (fuel + 1) (c :: tail) = _
    rw [basicString?, if_neg hquote, if_neg hslash, if_pos hplain]
  | @escape code hcode =>
    show basicString? (fuel + 1) ('\\' :: (code ++ tail)) = _
    rw [basicString?, if_neg (by decide), if_pos rfl, hcode]
  | lineEnd hlines => cases hlines

/-- **A string with escapes on one line gives its text back.** -/
theorem basicString?_escaped (rest : List Char) :
    ∀ (text : List Char) {fuel : Nat}, (escaped false 0 0 text).length < fuel →
      basicString? fuel (escaped false 0 0 text ++ '"' :: rest) = some (text, rest) := by
  intro text
  induction text with
  | nil =>
    intro fuel hfuel
    obtain ⟨fuel, rfl⟩ := Nat.exists_eq_succ_of_ne_zero (Nat.ne_of_gt hfuel)
    rfl
  | cons c text ih =>
    intro fuel hfuel
    obtain ⟨fuel, rfl⟩ := Nat.exists_eq_succ_of_ne_zero (Nat.ne_zero_of_lt hfuel)
    rw [escaped] at hfuel ⊢
    by_cases hquote : c = '"'
    · subst hquote
      rw [if_pos rfl, if_neg (Nat.lt_irrefl 0)] at hfuel ⊢
      have htail := @ih fuel (by simp only [List.length_cons] at hfuel; omega)
      show basicString? (fuel + 1) ('\\' :: '"' :: (escaped false 0 0 text ++ '"' :: rest)) = _
      rw [basicString?, if_neg (by decide), if_pos rfl]
      show (basicString? fuel (escaped false 0 0 text ++ '"' :: rest)).map _ = _
      rw [htail]
      rfl
    · rw [if_neg hquote] at hfuel ⊢
      have hshown := stands_escapedChar false c
      have hpos : 0 < (escapedChar false c).length := hshown.length_pos
      rw [List.length_append] at hfuel
      rw [List.append_assoc, basicString?_stands hshown hquote, ih (by omega)]
      rfl

/-- A string without escapes gives its text back if nothing in it would have to be escaped. -/
theorem literalString?_append (rest : List Char) :
    ∀ {text : List Char}, (∀ c ∈ text, isPlain c = true) → '\'' ∉ text →
      literalString? (text ++ '\'' :: rest) = some (text, rest) := by
  intro text
  induction text with
  | nil => intro _ _; rfl
  | cons c text ih =>
    intro hplain hquote
    have hc : c ≠ '\'' := fun heq => hquote (heq ▸ List.mem_cons_self ..)
    have htail := ih (fun d hd => hplain d (List.mem_cons_of_mem _ hd))
      (fun hd => hquote (List.mem_cons_of_mem _ hd))
    rw [List.cons_append, literalString?, if_neg hc,
      if_pos (hplain c (List.mem_cons_self ..)), htail]
    rfl

/-! ## Strings with lines -/

/-- The text that follows a string; the string ends before it only if no quote begins it. -/
def EndsQuotes (quote : Char) (rest : List Char) : Prop := rest.head? ≠ some quote

/-- The quotes that a text ends in are told apart from the three that close it. -/
theorem closingQuotes?_append {quote : Char} {rest : List Char} (hrest : EndsQuotes quote rest)
    {count : Nat} (hcount : count ≤ 2) :
    closingQuotes? quote (List.replicate (count + 3) quote ++ rest) =
      some (List.replicate count quote, rest) := by
  have htake : (List.replicate (count + 3) quote ++ rest).takeWhile (· == quote) =
      List.replicate (count + 3) quote := by
    rw [List.takeWhile_append_of_pos fun c hc => by
      rw [List.eq_of_mem_replicate hc]; exact beq_self_eq_true quote]
    cases rest with
    | nil => exact List.append_nil _
    | cons c more =>
      have hc : ¬(c == quote) = true := fun heq => hrest (congrArg some (beq_iff_eq.mp heq))
      rw [List.takeWhile_cons, if_neg hc, List.append_nil]
  unfold closingQuotes?
  rw [htake, List.length_replicate]
  have hbounds : (decide (3 ≤ count + 3) && decide (count + 3 ≤ 5)) = true := by
    simp only [Bool.and_eq_true, decide_eq_true_eq]
    omega
  rw [if_pos hbounds, List.drop_left' List.length_replicate]
  rfl

/-- Whether a text does not begin with two quotes. -/
def NoTwoQuotes (quote : Char) (text : List Char) : Prop :=
  ∀ more, text ≠ quote :: quote :: more

theorem noTwoQuotes_of_head {quote : Char} {text : List Char} (h : text.head? ≠ some quote) :
    NoTwoQuotes quote text := by
  intro more heq
  exact h (by rw [heq]; rfl)

theorem Stands.head?_ne {lines : Bool} {c : Char} {shown : List Char} (h : Stands lines c shown)
    (hquote : c ≠ '"') (tail : List Char) : (shown ++ tail).head? ≠ some '"' := by
  cases h with
  | plain => exact fun heq => hquote (Option.some.inj heq)
  | escape => exact fun heq => absurd (Option.some.inj heq) (by decide)
  | lineEnd => exact fun heq => absurd (Option.some.inj heq) (by decide)

/-- After `run` quotes the text with escapes either is quotes up to its end, and then so few that
the string can be closed, or does not go on with two quotes. -/
theorem escaped_afterQuotes (rest : List Char) {run : Nat} (hrun : run = 1 ∨ run = 2)
    (text : List Char) :
    (∃ count, run + count ≤ 2 ∧ text = List.replicate count '"' ∧
      escaped true 2 run text ++ '"' :: '"' :: '"' :: rest =
        List.replicate (count + 3) '"' ++ rest) ∨
    NoTwoQuotes '"' (escaped true 2 run text ++ '"' :: '"' :: '"' :: rest) := by
  -- What goes on with another character, or with a quote after two of them, begins with none.
  have hother (run : Nat) (c : Char) (more : List Char) (h : c ≠ '"' ∨ run = 2) :
      (escaped true 2 run (c :: more) ++ '"' :: '"' :: '"' :: rest).head? ≠ some '"' := by
    rw [escaped]
    by_cases hquote : c = '"'
    · have hmost : ¬run < 2 := by
        have := h.resolve_left fun hne => hne hquote
        omega
      rw [if_pos hquote, if_neg hmost]
      exact fun heq => absurd (Option.some.inj heq) (by decide)
    · rw [if_neg hquote, List.append_assoc]
      exact (stands_escapedChar true c).head?_ne hquote _
  cases text with
  | nil => exact Or.inl ⟨0, by omega, rfl, rfl⟩
  | cons c more =>
    by_cases hquote : c = '"' ∧ run = 1
    · obtain ⟨rfl, rfl⟩ := hquote
      have hsecond : escaped true 2 1 ('"' :: more) = '"' :: escaped true 2 2 more := by
        rw [escaped, if_pos rfl, if_pos (by decide)]
      rw [hsecond]
      cases more with
      | nil => exact Or.inl ⟨1, by omega, rfl, rfl⟩
      | cons d others =>
        right
        intro tail heq
        have hbehind := (List.cons.inj heq).2
        exact hother 2 d others (Or.inr rfl) (congrArg List.head? hbehind)
    · right
      refine noTwoQuotes_of_head (hother run c more ?_)
      by_cases hc : c = '"'
      · exact Or.inr (hrun.resolve_left fun h => hquote ⟨hc, h⟩)
      · exact Or.inl hc

theorem basicLines?_stands {c : Char} {shown : List Char} (h : Stands true c shown)
    (hquote : c ≠ '"') (fuel : Nat) (tail : List Char) :
    basicLines? (fuel + 1) (shown ++ tail) =
      (basicLines? fuel tail).map fun (text, rest) => (c :: text, rest) := by
  cases h with
  | plain hplain hslash =>
    show basicLines? (fuel + 1) (c :: tail) = _
    conv => lhs; unfold basicLines?
    rw [if_neg hquote, if_neg hslash, lineEnd?_of_isPlain hplain]
    exact if_pos hplain
  | @escape code hcode =>
    show basicLines? (fuel + 1) ('\\' :: (code ++ tail)) = _
    conv => lhs; unfold basicLines?
    rw [if_neg (by decide), if_pos rfl, hcode]
  | lineEnd hlines hend =>
    subst hend
    rfl

/-- A quote that does not stand before two others belongs to the text. -/
theorem basicLines?_quote {tail : List Char} (h : NoTwoQuotes '"' tail) (fuel : Nat) :
    basicLines? (fuel + 1) ('"' :: tail) =
      (basicLines? fuel tail).map fun (text, rest) => ('"' :: text, rest) := by
  conv => lhs; unfold basicLines?
  rw [if_pos rfl]
  split
  · next more => exact absurd rfl (h more)
  · rfl

/-- **A string with lines and escapes gives its text back**, wherever in a run of quotes it
begins. -/
theorem basicLines?_escaped {rest : List Char} (hrest : EndsQuotes '"' rest) :
    ∀ (text : List Char) {fuel run : Nat}, run ≤ 2 → (escaped true 2 run text).length < fuel →
      basicLines? fuel (escaped true 2 run text ++ '"' :: '"' :: '"' :: rest) =
        some (text, rest) := by
  intro text
  induction text with
  | nil =>
    intro fuel run _ hfuel
    obtain ⟨fuel, rfl⟩ := Nat.exists_eq_succ_of_ne_zero (Nat.ne_zero_of_lt hfuel)
    exact closingQuotes?_append hrest (Nat.zero_le 2)
  | cons c text ih =>
    intro fuel run hrun hfuel
    obtain ⟨fuel, rfl⟩ := Nat.exists_eq_succ_of_ne_zero (Nat.ne_zero_of_lt hfuel)
    rw [escaped] at hfuel ⊢
    by_cases hquote : c = '"'
    · subst hquote
      rw [if_pos rfl] at hfuel ⊢
      by_cases hmost : run < 2
      · rw [if_pos hmost] at hfuel ⊢
        rw [List.cons_append]
        have hbehind : run + 1 = 1 ∨ run + 1 = 2 := by omega
        rcases escaped_afterQuotes rest hbehind text with ⟨count, hcount, htext, hshown⟩ | hnot
        · have hclosing : count + 1 ≤ 2 := by omega
          rw [hshown, htext]
          exact closingQuotes?_append hrest hclosing
        · have htail := @ih fuel (run + 1) (by omega)
            (by simp only [List.length_cons] at hfuel; omega)
          rw [basicLines?_quote hnot, htail]
          rfl
      · rw [if_neg hmost] at hfuel ⊢
        have htail := @ih fuel 0 (by omega)
          (by simp only [List.length_cons] at hfuel; omega)
        show basicLines? (fuel + 1) ('\\' :: '"' :: (escaped true 2 0 text ++ _)) = _
        unfold basicLines?
        rw [if_neg (by decide), if_pos rfl]
        show (basicLines? fuel (escaped true 2 0 text ++ _)).map _ = _
        rw [htail]
        rfl
    · rw [if_neg hquote] at hfuel ⊢
      have hshown := stands_escapedChar true c
      have hpos := hshown.length_pos
      rw [List.length_append] at hfuel
      rw [List.append_assoc, basicLines?_stands hshown hquote,
        ih (by omega) (by omega)]
      rfl

/-! ## Runs of quotes -/

theorem le_longestRun (quote : Char) :
    ∀ (text : List Char) (current longest : Nat),
      longest ≤ longestRun quote current longest text := by
  intro text
  induction text with
  | nil => intro current longest; exact Nat.le_refl _
  | cons c text ih =>
    intro current longest
    unfold longestRun
    split
    · exact Nat.le_trans (Nat.le_max_left ..) (ih _ _)
    · exact ih _ _

/-- A text without runs of a quote does not hold it. -/
theorem notMem_of_longestRun (quote : Char) :
    ∀ {text : List Char} {current longest : Nat}, longestRun quote current longest text = 0 →
      quote ∉ text := by
  intro text
  induction text with
  | nil => intro current longest _; exact List.not_mem_nil
  | cons c text ih =>
    intro current longest h
    unfold longestRun at h
    split at h
    · have hle := le_longestRun quote text (current + 1) (max longest (current + 1))
      omega
    · next hc =>
      intro hmem
      rcases List.mem_cons.mp hmem with heq | hmem
      · exact hc heq.symm
      · exact ih h hmem

/-- After `run` quotes a text without longer runs than two either is quotes up to its end or does
not go on with two quotes. -/
theorem longestRun_afterQuotes {quote : Char} (rest : List Char) {run longest : Nat}
    (hrun : 1 ≤ run) (hlongest : run ≤ longest) {text : List Char}
    (h : longestRun quote run longest text ≤ 2) :
    (∃ count, run + count ≤ 2 ∧ text = List.replicate count quote) ∨
    NoTwoQuotes quote (text ++ quote :: quote :: quote :: rest) := by
  have hbound := le_longestRun quote text run longest
  cases text with
  | nil => exact Or.inl ⟨0, by omega, rfl⟩
  | cons c text =>
    by_cases hc : c = quote
    · subst hc
      unfold longestRun at h
      rw [if_pos rfl] at h
      have hle := le_longestRun c text (run + 1) (max longest (run + 1))
      cases text with
      | nil => exact Or.inl ⟨1, by omega, rfl⟩
      | cons d others =>
        right
        intro more heq
        have hd : d = c := (List.cons.inj (List.cons.inj heq).2).1
        subst hd
        unfold longestRun at h
        rw [if_pos rfl] at h
        have hle' := le_longestRun d others (run + 1 + 1)
          (max (max longest (run + 1)) (run + 1 + 1))
        omega
    · right
      exact noTwoQuotes_of_head fun heq => hc (Option.some.inj heq)

theorem literalLines?_quote {tail : List Char} (h : NoTwoQuotes '\'' tail) (fuel : Nat) :
    literalLines? (fuel + 1) ('\'' :: tail) =
      (literalLines? fuel tail).map fun (text, rest) => ('\'' :: text, rest) := by
  conv => lhs; unfold literalLines?
  rw [if_pos rfl]
  split
  · next more => exact absurd rfl (h more)
  · rfl

/-- **A string with lines and without escapes gives its text back** if nothing in it would have to
be escaped and no quotes in it would close it. -/
theorem literalLines?_append {rest : List Char} (hrest : EndsQuotes '\'' rest) :
    ∀ {text : List Char} {fuel run longest : Nat}, (∀ c ∈ text, isPlain c = true ∨ c = '\n') →
      longestRun '\'' run longest text ≤ 2 → text.length < fuel →
      literalLines? fuel (text ++ '\'' :: '\'' :: '\'' :: rest) = some (text, rest) := by
  intro text
  induction text with
  | nil =>
    intro fuel run longest _ _ hfuel
    obtain ⟨fuel, rfl⟩ := Nat.exists_eq_succ_of_ne_zero (Nat.ne_zero_of_lt hfuel)
    exact closingQuotes?_append hrest (Nat.zero_le 2)
  | cons c text ih =>
    intro fuel run longest hall hruns hfuel
    obtain ⟨fuel, rfl⟩ := Nat.exists_eq_succ_of_ne_zero (Nat.ne_zero_of_lt hfuel)
    have hmore : ∀ d ∈ text, isPlain d = true ∨ d = '\n' := fun d hd =>
      hall d (List.mem_cons_of_mem _ hd)
    have hshorter : text.length < fuel := Nat.lt_of_succ_lt_succ hfuel
    unfold longestRun at hruns
    rw [List.cons_append]
    by_cases hquote : c = '\''
    · subst hquote
      rw [if_pos rfl] at hruns
      have hlongest : run + 1 ≤ max longest (run + 1) := Nat.le_max_right ..
      rcases longestRun_afterQuotes rest (Nat.succ_pos run) hlongest hruns with
        ⟨count, hcount, htext⟩ | hnot
      · have hclosing : List.replicate count '\'' ++ '\'' :: '\'' :: '\'' :: rest =
            List.replicate (count + 3) '\'' ++ rest := by
          rw [← List.replicate_append_replicate, List.append_assoc]
          rfl
        have hmost : count + 1 ≤ 2 := by omega
        rw [htext, hclosing]
        exact closingQuotes?_append hrest hmost
      · rw [literalLines?_quote hnot, ih hmore hruns hshorter]
        rfl
    · rw [if_neg hquote] at hruns
      have htail := ih hmore hruns hshorter
      rcases hall c (List.mem_cons_self ..) with hplain | hline
      · conv => lhs; unfold literalLines?
        rw [if_neg hquote, lineEnd?_of_isPlain hplain]
        dsimp only
        rw [if_pos hplain, htail]
        rfl
      · subst hline
        show (literalLines? fuel (text ++ _)).map _ = _
        rw [htail]
        rfl

/-! ## The choice of a form -/

/-- Whether a form can hold the text: those without escapes hold it as it is. -/
def StringForm.Suits (form : StringForm) (text : List Char) : Prop :=
  match form with
  | .basic | .basicLines => True
  | .literal => (∀ c ∈ text, isPlain c = true) ∧ '\'' ∉ text
  | .literalLines =>
    (∀ c ∈ text, isPlain c = true ∨ c = '\n') ∧ longestRun '\'' 0 0 text ≤ 2

theorem isPlain_of_not_needsEscape {c : Char} (h : needsEscape c = false) :
    isPlain c = true ∨ c = '\n' := by
  by_cases hline : c = '\n'
  · exact Or.inr hline
  · left
    unfold needsEscape at h
    unfold isPlain
    simp only [Bool.or_eq_false_iff, Bool.and_eq_false_iff, decide_eq_false_iff_not,
      bne_eq_false_iff_eq, beq_eq_false_iff_ne] at h
    simp only [Bool.or_eq_true, Bool.and_eq_true, decide_eq_true_eq, bne_iff_ne, beq_iff_eq]
    by_cases htab : c = '\t'
    · exact Or.inl htab
    · right
      have hlow : ¬c.toNat < 0x20 := h.1.elim (fun h' => h'.resolve_right htab) (absurd · hline)
      exact ⟨Nat.not_lt.mp hlow, h.2⟩

/-- The form that is chosen for a text can hold it. -/
theorem formOf_suits (text : List Char) : (formOf text).Suits text := by
  have hplain (h : text.any needsEscape = false) : ∀ c ∈ text, isPlain c = true ∨ c = '\n' :=
    fun c hc => isPlain_of_not_needsEscape (List.any_eq_false.mp h c hc |> Bool.eq_false_iff.mpr)
  unfold formOf
  dsimp only
  split
  · trivial
  split
  · next h =>
    simp only [Bool.and_eq_true, Bool.not_eq_true', beq_iff_eq] at h
    have hline : '\n' ∉ text := fun hmem => by
      rw [List.contains_iff_mem.mpr hmem] at h
      exact Bool.noConfusion h.2
    refine ⟨fun c hc => (hplain h.1.1 c hc).resolve_right fun heq => hline (heq ▸ hc),
      notMem_of_longestRun '\'' h.1.2⟩
  split
  · trivial
  split
  · next h =>
    simp only [Bool.and_eq_true, Bool.not_eq_true', decide_eq_true_eq] at h
    exact ⟨hplain h.1, h.2⟩
  split
  · trivial
  · trivial

/-! ## All forms -/

theorem dropLineEnd_of_none {text : List Char} (h : lineEnd? text = none) :
    dropLineEnd text = text := by
  unfold dropLineEnd
  rw [h]
  rfl

/-- What opens a string with lines is taken away again: a line end is added just if a line end
follows, and no other is taken for it. -/
theorem dropLineEnd_start {text shown : List Char}
    (h : '\n' ∉ text → lineEnd? shown = none) :
    dropLineEnd ((if text.contains '\n' then ['\n'] else []) ++ shown) = shown := by
  split
  · rfl
  · next hline =>
    refine dropLineEnd_of_none (h fun hmem => hline (List.contains_iff_mem.mpr hmem))

theorem Stands.lineEnd?_eq_none {lines : Bool} {c : Char} {shown : List Char}
    (h : Stands lines c shown) (hline : c ≠ '\n') (tail : List Char) :
    lineEnd? (shown ++ tail) = none := by
  cases h with
  | plain hplain hslash => exact lineEnd?_of_isPlain hplain tail
  | escape => rfl
  | lineEnd hlines hend => exact absurd hend hline

theorem lineEnd?_escaped {text : List Char} (h : '\n' ∉ text) (rest : List Char) :
    lineEnd? (escaped true 2 0 text ++ '"' :: rest) = none := by
  cases text with
  | nil => rfl
  | cons c more =>
    rw [escaped]
    split
    · rfl
    · have hc : c ≠ '\n' := fun heq => h (heq ▸ List.mem_cons_self ..)
      rw [List.append_assoc]
      exact (stands_escapedChar true c).lineEnd?_eq_none hc _

theorem lineEnd?_asIs {text : List Char} (hall : ∀ c ∈ text, isPlain c = true ∨ c = '\n')
    (h : '\n' ∉ text) (rest : List Char) : lineEnd? (text ++ '\'' :: rest) = none := by
  cases text with
  | nil => rfl
  | cons c more =>
    have hc : c ≠ '\n' := fun heq => h (heq ▸ List.mem_cons_self ..)
    exact lineEnd?_of_isPlain ((hall c (List.mem_cons_self ..)).resolve_right hc) _

theorem noTwoQuotes_cons {quote : Char} {rest : List Char} (h : EndsQuotes quote rest) :
    NoTwoQuotes quote (quote :: rest) := by
  intro more heq
  exact h (congrArg List.head? (List.cons.inj heq).2)

theorem noTwoQuotes_escaped {rest : List Char} (hrest : EndsQuotes '"' rest) (text : List Char) :
    NoTwoQuotes '"' (escaped false 0 0 text ++ '"' :: rest) := by
  cases text with
  | nil => exact noTwoQuotes_cons hrest
  | cons c more =>
    apply noTwoQuotes_of_head
    rw [escaped]
    by_cases hquote : c = '"'
    · rw [if_pos hquote, if_neg (Nat.lt_irrefl 0)]
      exact fun heq => absurd (Option.some.inj heq) (by decide)
    · rw [if_neg hquote, List.append_assoc]
      exact (stands_escapedChar false c).head?_ne hquote _

theorem noTwoQuotes_asIs {quote : Char} {text rest : List Char} (hrest : EndsQuotes quote rest)
    (h : quote ∉ text) : NoTwoQuotes quote (text ++ quote :: rest) := by
  cases text with
  | nil => exact noTwoQuotes_cons hrest
  | cons c more =>
    exact noTwoQuotes_of_head fun heq => h (Option.some.inj heq ▸ List.mem_cons_self ..)

theorem string?_basic {tail : List Char} (h : NoTwoQuotes '"' tail) :
    string? ('"' :: tail) = basicString? (tail.length + 1) tail := by
  unfold string?
  split
  · next more heq => exact absurd (List.cons.inj heq).2 (h more)
  · next heq => cases heq
  · next heq => rw [(List.cons.inj heq).2]
  · next heq => cases heq
  · next hdouble _ => exact absurd rfl (hdouble tail)

theorem string?_literal {tail : List Char} (h : NoTwoQuotes '\'' tail) :
    string? ('\'' :: tail) = literalString? tail := by
  unfold string?
  split
  · next heq => cases heq
  · next more heq => exact absurd (List.cons.inj heq).2 (h more)
  · next heq => cases heq
  · next heq => rw [(List.cons.inj heq).2]
  · next hsingle => exact absurd rfl (hsingle tail)

/-- A string in a form that suits its text gives the text back. -/
theorem string?_writtenAs {form : StringForm} {text : List Char} (h : form.Suits text)
    {rest : List Char} (hdouble : EndsQuotes '"' rest) (hsingle : EndsQuotes '\'' rest) :
    string? (writtenAs form text ++ rest) = some (text, rest) := by
  cases form with
  | basic =>
    show string? ('"' :: (escaped false 0 0 text ++ ['"']) ++ rest) = _
    rw [List.cons_append, List.append_assoc, List.singleton_append,
      string?_basic (noTwoQuotes_escaped hdouble text)]
    refine basicString?_escaped rest text ?_
    rw [List.length_append]
    omega
  | literal =>
    show string? ('\'' :: (text ++ ['\'']) ++ rest) = _
    rw [List.cons_append, List.append_assoc, List.singleton_append,
      string?_literal (noTwoQuotes_asIs hsingle h.2)]
    exact literalString?_append rest h.1 h.2
  | basicLines =>
    have hshown : writtenAs .basicLines text ++ rest =
        '"' :: '"' :: '"' :: ((if text.contains '\n' then ['\n'] else []) ++
          (escaped true 2 0 text ++ '"' :: '"' :: '"' :: rest)) := by
      simp [writtenAs]
    rw [hshown]
    show basicLines? _ (dropLineEnd _) = _
    rw [dropLineEnd_start fun hline => lineEnd?_escaped hline _]
    refine basicLines?_escaped hdouble text (Nat.zero_le 2) ?_
    simp only [List.length_append]
    omega
  | literalLines =>
    have hshown : writtenAs .literalLines text ++ rest =
        '\'' :: '\'' :: '\'' :: ((if text.contains '\n' then ['\n'] else []) ++
          (text ++ '\'' :: '\'' :: '\'' :: rest)) := by
      simp [writtenAs]
    rw [hshown]
    show literalLines? _ (dropLineEnd _) = _
    rw [dropLineEnd_start fun hline => lineEnd?_asIs h.1 hline _]
    refine literalLines?_append hsingle h.1 h.2 ?_
    simp only [List.length_append]
    omega

/-- **A text is read as it was written**, whatever characters it holds. -/
theorem string?_stringText (text : String) {rest : List Char} (hdouble : EndsQuotes '"' rest)
    (hsingle : EndsQuotes '\'' rest) :
    string? (stringText text ++ rest) = some (text.toList, rest) :=
  string?_writtenAs (formOf_suits text.toList) hdouble hsingle

end FileLore.Toml
