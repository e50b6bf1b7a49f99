import FileLore.Proofs.Text.Line

/-!
# Line ends with a carriage return

The same text with line feeds alone and with a carriage return before each of them
(`withReturns`). Taking the carriage returns away again gives back the text, and
its lines are the same in both forms (`lines_withReturns`).

Where a carriage return stands in the second form, a line feed follows
(`ReturnsEndLines`). That is all that is used of this form when it is read from a
place on.
-/

namespace FileLore.Text

variable {text rest : List Char} {accepts : Char → Bool}

/-- The text with a carriage return before every line feed. -/
def withReturns (text : List Char) : List Char :=
  text.flatMap fun c => if c = '\n' then ['\r', '\n'] else [c]

/-- The text without its carriage returns. -/
def withoutReturns (text : List Char) : List Char :=
  text.filter (· != '\r')

theorem withReturns_feed (rest : List Char) :
    withReturns ('\n' :: rest) = '\r' :: '\n' :: withReturns rest := rfl

theorem withReturns_cons {c : Char} (hc : c ≠ '\n') (rest : List Char) :
    withReturns (c :: rest) = c :: withReturns rest := by
  rw [withReturns, List.flatMap_cons, if_neg hc]
  rfl

theorem withReturns_append (text rest : List Char) :
    withReturns (text ++ rest) = withReturns text ++ withReturns rest :=
  List.flatMap_append

theorem withReturns_ne_nil (h : text ≠ []) : withReturns text ≠ [] := by
  obtain ⟨c, more, rfl⟩ := List.exists_cons_of_ne_nil h
  by_cases hc : c = '\n'
  · rw [hc, withReturns_feed]
    exact List.cons_ne_nil _ _
  · rw [withReturns_cons hc]
    exact List.cons_ne_nil _ _

/-- All characters of the text are still of a kind that a carriage return is of too. -/
theorem forall_mem_withReturns (haccepts : accepts '\r' = true)
    (h : ∀ c ∈ text, accepts c = true) : ∀ c ∈ withReturns text, accepts c = true := by
  intro c hc
  obtain ⟨d, hd, hc⟩ := List.mem_flatMap.mp hc
  split at hc
  next hfeed =>
    rcases List.mem_pair.mp hc with rfl | rfl
    · exact haccepts
    · exact hfeed ▸ h d hd
  next => exact List.mem_singleton.mp hc ▸ h d hd

@[simp] theorem withoutReturns_nil : withoutReturns [] = [] := rfl

@[simp] theorem withoutReturns_return (rest : List Char) :
    withoutReturns ('\r' :: rest) = withoutReturns rest := rfl

theorem withoutReturns_cons {c : Char} (hc : c ≠ '\r') (rest : List Char) :
    withoutReturns (c :: rest) = c :: withoutReturns rest :=
  List.filter_cons_of_pos (by simpa using hc)

theorem withoutReturns_append (text rest : List Char) :
    withoutReturns (text ++ rest) = withoutReturns text ++ withoutReturns rest :=
  List.filter_append ..

theorem withoutReturns_of_notMem (h : '\r' ∉ text) : withoutReturns text = text := by
  refine List.filter_eq_self.mpr fun c hc => ?_
  have hne : c ≠ '\r' := fun heq => h (heq ▸ hc)
  simpa using hne

/-- **Without its carriage returns the text is the one it was made from.** -/
theorem withoutReturns_withReturns (h : '\r' ∉ text) :
    withoutReturns (withReturns text) = text := by
  induction text with
  | nil => rfl
  | cons c rest ih =>
    have hrest := ih fun hmem => h (List.mem_cons_of_mem c hmem)
    have hne : c ≠ '\r' := fun heq => h (heq ▸ List.mem_cons_self)
    by_cases hc : c = '\n'
    · subst hc
      rw [withReturns_feed, withoutReturns_return, withoutReturns_cons hne, hrest]
    · rw [withReturns_cons hc, withoutReturns_cons hne, hrest]

/-! ## Runs -/

/-- A run that a carriage return may belong to ends at the same place without it. -/
theorem withoutReturns_dropWhile (h : accepts '\r' = true) (text : List Char) :
    withoutReturns (text.dropWhile accepts) = (withoutReturns text).dropWhile accepts := by
  induction text with
  | nil => rfl
  | cons c rest ih =>
    by_cases hc : c = '\r'
    · subst hc
      rw [List.dropWhile_cons_of_pos h, ih, withoutReturns_return]
    · rw [withoutReturns_cons hc]
      by_cases haccepts : accepts c = true
      · rw [List.dropWhile_cons_of_pos haccepts, List.dropWhile_cons_of_pos haccepts, ih]
      · rw [List.dropWhile_cons_of_neg haccepts, List.dropWhile_cons_of_neg haccepts,
          withoutReturns_cons hc]

theorem withoutReturns_takeWhile (h : accepts '\r' = true) (text : List Char) :
    withoutReturns (text.takeWhile accepts) = (withoutReturns text).takeWhile accepts := by
  have hsplit := congrArg withoutReturns
    (List.takeWhile_append_dropWhile (p := accepts) (l := text))
  rw [withoutReturns_append, withoutReturns_dropWhile h] at hsplit
  exact List.append_cancel_right (hsplit.trans List.takeWhile_append_dropWhile.symm)

/-! ## Where carriage returns stand -/

/-- Whether a line feed follows every carriage return in the text. -/
def ReturnsEndLines (text : List Char) : Prop :=
  ∀ rest, '\r' :: rest <:+ text → ∃ more, rest = '\n' :: more

theorem ReturnsEndLines.mono (h : ReturnsEndLines text) (hrest : rest <:+ text) :
    ReturnsEndLines rest :=
  fun more hmore => h more (hmore.trans hrest)

/-- **A carriage return is put nowhere but before a line feed.** -/
theorem returnsEndLines_withReturns (h : '\r' ∉ text) : ReturnsEndLines (withReturns text) := by
  induction text with
  | nil =>
    intro rest hrest
    exact absurd (List.suffix_nil.mp hrest) (List.cons_ne_nil _ _)
  | cons c later ih =>
    have hlater := ih fun hmem => h (List.mem_cons_of_mem c hmem)
    intro rest hrest
    by_cases hc : c = '\n'
    · subst hc
      rw [withReturns_feed, List.suffix_cons_iff, List.suffix_cons_iff] at hrest
      rcases hrest with heq | heq | hrest
      · exact ⟨withReturns later, (List.cons.inj heq).2⟩
      · exact absurd (List.cons.inj heq).1 (by decide)
      · exact hlater rest hrest
    · rw [withReturns_cons hc, List.suffix_cons_iff] at hrest
      rcases hrest with heq | hrest
      · exact absurd ((List.cons.inj heq).1 ▸ List.mem_cons_self) h
      · exact hlater rest hrest

/-- On a line that no line feed ends there is no carriage return. -/
theorem ReturnsEndLines.notMem {before line : List Char}
    (h : ReturnsEndLines (before ++ (line ++ rest))) (hline : '\n' ∉ line)
    (hrest : rest.head? ≠ some '\n') : '\r' ∉ line := by
  intro hmem
  obtain ⟨start, later, rfl⟩ := List.append_of_mem hmem
  have hsuffix : '\r' :: (later ++ rest) <:+ before ++ (start ++ '\r' :: later ++ rest) :=
    ⟨before ++ start, by simp⟩
  obtain ⟨more, hmore⟩ := h _ hsuffix
  cases later with
  | nil => exact hrest (congrArg List.head? hmore)
  | cons c later =>
    refine hline (List.mem_append_right start (List.mem_cons_of_mem _ ?_))
    rw [(List.cons.inj hmore).1]
    exact List.mem_cons_self

/-- A text that no line feed follows is not all carriage returns. -/
theorem withoutReturns_ne_nil (h : ReturnsEndLines (text ++ rest))
    (hne : text ≠ []) (hrest : rest.head? ≠ some '\n') : withoutReturns text ≠ [] := by
  obtain ⟨c, later, rfl⟩ := List.exists_cons_of_ne_nil hne
  by_cases hc : c = '\r'
  · subst hc
    obtain ⟨more, hmore⟩ := h (later ++ rest) List.suffix_rfl
    cases later with
    | nil => exact absurd (congrArg List.head? hmore) hrest
    | cons d later =>
      rw [(List.cons.inj hmore).1, withoutReturns_return, withoutReturns_cons (by decide)]
      exact List.cons_ne_nil _ _
  · rw [withoutReturns_cons hc]
    exact List.cons_ne_nil _ _

/-- **A line feed stands nowhere but behind a carriage return.** -/
theorem exists_return_of_feed : ∀ {text before after : List Char},
    withReturns text = before ++ '\n' :: after → ∃ front, before = front ++ ['\r'] := by
  intro text
  induction text with
  | nil =>
    intro before after h
    exact absurd h.symm (List.append_ne_nil_of_right_ne_nil _ (List.cons_ne_nil _ _))
  | cons c later ih =>
    intro before after h
    by_cases hc : c = '\n'
    · subst hc
      rw [withReturns_feed] at h
      cases before with
      | nil => exact absurd (List.cons.inj h).1 (by decide)
      | cons d before =>
        obtain ⟨rfl, hfeed⟩ := List.cons.inj h
        cases before with
        | nil => exact ⟨[], rfl⟩
        | cons e before =>
          obtain ⟨front, rfl⟩ := ih (List.cons.inj hfeed).2
          exact ⟨'\r' :: e :: front, rfl⟩
    · rw [withReturns_cons hc] at h
      cases before with
      | nil => exact absurd (List.cons.inj h).1 hc
      | cons d before =>
        obtain ⟨front, rfl⟩ := ih (List.cons.inj h).2
        exact ⟨d :: front, rfl⟩

/-! ## Lines -/

theorem linesFrom_withReturns (text : List Char) :
    '\r' ∉ text → ∀ opened, '\r' ∉ opened →
      linesFrom opened (withReturns text) = linesFrom opened text := by
  induction text with
  | nil => exact fun _ _ _ => rfl
  | cons c rest ih =>
    intro h opened hopened
    rw [List.mem_cons, not_or] at h
    by_cases hc : c = '\n'
    · subst hc
      have hclose : closeLine opened = opened.reverse :=
        closeLine_of_head?_ne fun hhead => hopened (List.mem_of_mem_head? hhead)
      -- The carriage return goes into the line first and is taken out of it at the line feed.
      rw [withReturns_feed, linesFrom, if_neg (by decide), linesFrom, if_pos rfl, linesFrom,
        if_pos rfl, hclose, ih h.2 [] List.not_mem_nil]
      rfl
    · rw [withReturns_cons hc, linesFrom, linesFrom, if_neg hc, if_neg hc]
      refine ih h.2 (c :: opened) fun hmem => ?_
      rcases List.mem_cons.mp hmem with heq | hmem
      · exact h.1 heq
      · exact hopened hmem

/-- **The lines of a text do not tell in which way they end.** -/
theorem lines_withReturns (h : '\r' ∉ text) : lines (withReturns text) = lines text :=
  linesFrom_withReturns text h [] List.not_mem_nil

end FileLore.Text
