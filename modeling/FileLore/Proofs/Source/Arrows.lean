import FileLore.Proofs.Source.PlainLines

/-!
# Names bound to arrow functions

Between the equals sign behind a name and an arrow, the pattern of arrow functions
runs over anything but further equals signs, and over brackets with whatever they
hold, for any number of lines. `ArrowFree` describes texts from whose beginning it
reaches no arrow this way: one step leads to another such text (`ArrowFree.step`),
so any number of steps does (`ArrowFree.steps`). A name bound in front of such a
text is refused (`refuses_arrow`).
-/

namespace FileLore

open Pattern Extractor Text
open Relation (TransGen)

/-- The words that values are bound by. -/
def binders : List String := ["const", "let", "var"]

variable {text rest name : List Char} {binder : String}

/-! ## Steps to an arrow -/

/-- What may stand, again and again, between an equals sign and an arrow. -/
def arrowStep : Pattern := either bracketed (one (· != '='))

/-- Whether no steps from the beginning of the text lead to an arrow: they run over no equals sign
outside round brackets, and none within, and the one that they stop at begins no arrow. -/
inductive ArrowFree : List Char → Prop where
  | done : ArrowFree []
  | bound (rest : List Char) : ArrowFree ('=' :: ' ' :: rest)
  | pass {c : Char} {rest : List Char} (hc : c ≠ '=') (hopen : c ≠ '(') (h : ArrowFree rest) :
    ArrowFree (c :: rest)
  | bracket {inner rest : List Char} (hinner : ∀ c ∈ inner, c ≠ ')' ∧ c ≠ '=')
    (h : ArrowFree (inner ++ ')' :: rest)) : ArrowFree ('(' :: (inner ++ ')' :: rest))

theorem ArrowFree.space (h : ArrowFree rest) : ArrowFree (' ' :: rest) :=
  .pass (by decide) (by decide) h

theorem ArrowFree.tail {c : Char} (h : ArrowFree (c :: rest)) (hc : c ≠ '=') : ArrowFree rest := by
  cases h with
  | bound => exact absurd rfl hc
  | pass _ _ h => exact h
  | bracket _ h => exact h

theorem ArrowFree.drop (h : ArrowFree (text ++ rest)) (htext : ∀ c ∈ text, c ≠ '=') :
    ArrowFree rest := by
  induction text with
  | nil => exact h
  | cons c text ih =>
    exact ih (h.tail (htext c List.mem_cons_self)) fun d hd => htext d (List.mem_cons_of_mem c hd)

theorem ArrowFree.append (h : ArrowFree rest)
    (htext : ∀ c ∈ text, c ≠ '=' ∧ c ≠ '(') : ArrowFree (text ++ rest) := by
  induction text with
  | nil => exact h
  | cons c text ih =>
    obtain ⟨hc, hopen⟩ := htext c List.mem_cons_self
    exact .pass hc hopen (ih fun d hd => htext d (List.mem_cons_of_mem c hd))

/-- One step leads to no arrow. -/
theorem ArrowFree.step {start stop : Progress} (h : ArrowFree start.rest)
    (hread : arrowStep.Reads start stop) : ArrowFree stop.rest := by
  rcases hread with hbrackets | ⟨c, rest, hstart, hc, rfl⟩
  · obtain ⟨inside, hopen, hread⟩ := reads_sequence_cons.mp hbrackets
    obtain ⟨behind, hmany, hclose⟩ := reads_sequence_cons.mp hread
    obtain ⟨text, htext, hinside⟩ := hmany.many
    have hstart : start.rest = '(' :: (text ++ ')' :: stop.rest) := by
      rw [hopen.literal, hinside, Reads.literal hclose]
      rfl
    rw [hstart] at h
    generalize hafter : text ++ ')' :: stop.rest = after at h
    cases h with
    | pass _ hopen => exact absurd rfl hopen
    | @bracket inner rest hinner h =>
      -- What is read and what the text tells both end at the first bracket that closes.
      have hsame := run_unique hafter htext
        (fun c hc => bne_iff_ne.mpr (hinner c hc).1) (endsRun_cons.mpr rfl) (endsRun_cons.mpr rfl)
      have hrest : stop.rest = rest := (List.cons.inj hsame.2).2
      rw [hrest]
      exact (h.drop fun c hc => (hinner c hc).2).tail (by decide)
  · rw [hstart] at h
    exact h.tail (bne_iff_ne.mp hc)

/-- **No number of steps leads to an arrow.** -/
theorem ArrowFree.steps {start stop : Progress} (h : ArrowFree start.rest)
    (hread : TransGen arrowStep.Reads start stop) : ArrowFree stop.rest := by
  induction hread with
  | single hstep => exact h.step hstep
  | tail _ hstep ih => exact ih.step hstep

theorem ArrowFree.no_arrow (h : ArrowFree text) : ¬"=>".toList <+: text := by
  rintro ⟨rest, rfl⟩
  cases h with
  | pass hc => exact hc rfl

/-- No arrow is read behind an equals sign with such a text behind it. -/
theorem ArrowFree.refuses (h : ArrowFree rest) :
    (sequence [mayGap, repeated arrowStep, literal "=>"]).Refuses rest := by
  rw [refuses_iff rfl]
  rintro start stop rfl hread
  obtain ⟨value, hgap, hread⟩ := reads_sequence_cons.mp hread
  obtain ⟨atArrow, hsteps, harrow⟩ := reads_sequence_cons.mp hread
  obtain ⟨blanks, hblanks, hvalue⟩ := hgap.many
  have hfree : ArrowFree value.rest := by
    rw [hvalue] at h
    refine h.drop fun c hc => ?_
    rintro rfl
    exact absurd (hblanks _ hc) (by decide)
  have hend : ArrowFree atArrow.rest := by
    rcases hsteps with hsteps | rfl
    · exact hfree.steps hsteps
    · exact hfree
  exact hend.no_arrow ⟨stop.rest, (Reads.literal harrow).symm⟩

/-! ## Bound names -/

/-- From the end of the name on, a line that binds an arrow function is taken up to the arrow. -/
theorem takes_binding (hclose : ')' ∉ text) (rest : List Char) :
    (sequence [mayGap, literal "=", mayGap, repeated arrowStep, literal "=>"]).Takes
      (' ' :: '=' :: ' ' :: '(' :: (text ++ [')', ' ', '=', '>'])) rest [] := by
  have hblank : arrowStep.Takes [' '] ('=' :: '>' :: rest) [] :=
    (takes_one rfl _).either_of_refuses (refuses_bracketed (by decide))
  have hstop : arrowStep.Refuses ('=' :: '>' :: rest) :=
    (refuses_bracketed (by decide)).either (refuses_one rfl)
  have hbrackets : arrowStep.Takes ('(' :: (text ++ [')'])) (' ' :: '=' :: '>' :: rest) [] :=
    (takes_bracketed hclose _).either _
  have hmore : TakesRounds arrowStep ('=' :: '>' :: rest) [' '] :=
    .round hblank (List.cons_ne_nil ' ' []) (.stop hstop)
  have hsteps := (TakesRounds.takes hbrackets (List.cons_ne_nil _ _) hmore).optional
  have harrow := hsteps.cons ((takes_literal "=>" rest).cons (takes_nil _))
  have hvalue := (takes_mayGap (endsRun_cons.mpr rfl)).cons harrow
  have hall := (takes_mayGap (endsRun_cons.mpr rfl)).cons ((takes_literal "=" _).cons hvalue)
  simp only [List.cons_append, List.append_assoc, List.nil_append, List.append_nil] at hall
  exact hall

/-- The pattern of arrow functions takes a line that binds one up to the arrow. -/
theorem takes_arrow (hbinder : binder ∈ binders) (hname : IsWord name) (hclose : ')' ∉ text)
    (rest : List Char) :
    scriptArrow.pattern.Takes (binder.toList ++ ' ' :: (name ++
      ' ' :: '=' :: ' ' :: '(' :: (text ++ [')', ' ', '=', '>']))) rest [(1, name)] :=
  (takes_choice (by decide) hbinder _).cons
    (takes_gap_namedWord hname (endsRun_cons.mpr rfl) (takes_binding hclose rest))

/-- **It refuses a line that binds something else**, if no arrow can be reached from there. -/
theorem refuses_arrow (hbinder : binder ∈ binders) (hname : IsWord name) (h : ArrowFree rest) :
    scriptArrow.pattern.Refuses (binder.toList ++ ' ' :: (name ++ ' ' :: '=' :: rest)) := by
  rw [refuses_iff isSearchable_scriptArrow.holds]
  intro start stop hstart hread
  obtain ⟨afterBinder, hchoice, hread⟩ := reads_sequence_cons.mp hread
  have hchoice : (choice (binders.map literal)).Reads start afterBinder := hchoice
  obtain ⟨word, hmem, hword⟩ := hchoice.choice
  have hfree : PrefixFree binders := by decide
  obtain rfl : word = binder := hfree.eq_of_prefix hmem hbinder ⟨_, hword.symm⟩ ⟨_, hstart.symm⟩
  have hrest := List.append_cancel_left (hstart.symm.trans hword)
  -- The equals sign stands behind the name, so the name is read as a whole.
  have hsign : (sequence [literal "=", mayGap, repeated arrowStep, literal "=>"]).FollowsRun
      isWordChar := (followsRun_literal rfl (by decide)).cons _
  have hfollows := FollowsRun.many_cons (fun _ => isWordChar_of_isBlank) hsign
  obtain ⟨afterName, hsplit, hread⟩ := reads_gap_namedWord hread hfollows hname
    (endsRun_cons.mpr rfl) hrest.symm
  obtain ⟨atSign, hgap, hread⟩ := reads_sequence_cons.mp hread
  obtain ⟨afterSign, hsign, hread⟩ := reads_sequence_cons.mp hread
  obtain ⟨blanks, hblanks, hatSign⟩ := hgap.many
  have hatSign := rest_of_blanks (hatSign.symm.trans hsplit) hblanks
    (hsign.literal ▸ endsRun_cons.mpr rfl) (endsRun_cons.mpr rfl)
  have hafterSign : rest = afterSign.rest := (List.cons.inj (hatSign.symm.trans hsign.literal)).2
  exact (refuses_iff rfl).mp h.refuses afterSign stop hafterSign.symm hread

end FileLore
