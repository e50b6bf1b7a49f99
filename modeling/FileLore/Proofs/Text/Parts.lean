import FileLore.Text.Search
import Mathlib.Data.List.TakeWhile

/-!
# Parts between separators

The parts of a text around a separator, and a text cut at the first or the last
place where a character stands. Reading a text from its back up to a character
gives what follows the last one (`takeWhile_reverse_cut`).
-/

namespace FileLore.Text

variable {text before after : List Char} {mark : Char}

/-! ## Splitting -/

/-- The parts of a text around a separator are the parts before it and those after it. -/
theorem splitAt_append (separator : Char) (before after : List Char) :
    splitAt separator (before ++ separator :: after)
      = splitAt separator before ++ splitAt separator after := by
  induction before with
  | nil => simp [splitAt]
  | cons c rest ih =>
    rw [List.cons_append, splitAt, splitAt]
    by_cases h : c = separator
    · rw [if_pos h, if_pos h, ih]
      rfl
    · rw [if_neg h, if_neg h, ih]
      cases hs : splitAt separator rest with
      | nil => exact absurd hs (splitAt_ne_nil separator rest)
      | cons part parts => rfl

theorem splitAt_of_notMem {separator : Char} :
    ∀ {text : List Char}, separator ∉ text → splitAt separator text = [text] := by
  intro text
  induction text with
  | nil => intro _; rfl
  | cons c rest ih =>
    intro h
    have hc : c ≠ separator := fun e => h (e ▸ List.mem_cons_self ..)
    have hrest : separator ∉ rest := fun hm => h (List.mem_cons_of_mem _ hm)
    rw [splitAt, if_neg hc, ih hrest]

/-! ## Cutting -/

/-- A text that holds a character can be cut at the first of these. -/
theorem exists_first (h : mark ∈ text) :
    ∃ before after, text = before ++ mark :: after ∧ mark ∉ before := by
  obtain ⟨before, after, heq, hbefore⟩ := List.eq_append_cons_of_mem h
  exact ⟨before, after, heq, hbefore⟩

/-- A text that holds a character can be cut at the last of these. -/
theorem exists_last (h : mark ∈ text) :
    ∃ before after, text = before ++ mark :: after ∧ mark ∉ after := by
  obtain ⟨back, front, heq, hback⟩ := exists_first (List.mem_reverse.mpr h)
  refine ⟨front.reverse, back.reverse, ?_, mt List.mem_reverse.mp hback⟩
  rw [← List.reverse_reverse text, heq]
  simp

theorem ne_of_notMem (h : mark ∉ before) : ∀ c ∈ before, (c != mark) = true := by
  intro c hc
  have hne : c ≠ mark := fun heq => h (heq ▸ hc)
  simpa using hne

theorem takeWhile_cut (h : mark ∉ before) (after : List Char) :
    (before ++ mark :: after).takeWhile (· != mark) = before := by
  rw [List.takeWhile_append_of_pos (ne_of_notMem h)]
  simp

theorem dropWhile_cut (h : mark ∉ before) (after : List Char) :
    (before ++ mark :: after).dropWhile (· != mark) = mark :: after := by
  rw [List.dropWhile_append_of_pos (ne_of_notMem h)]
  simp

theorem dropWhile_of_notMem (h : mark ∉ text) : text.dropWhile (· != mark) = [] :=
  List.dropWhile_eq_nil_iff.mpr (ne_of_notMem h)

theorem takeWhile_of_notMem (h : mark ∉ text) : text.takeWhile (· != mark) = text :=
  List.takeWhile_eq_self_iff.mpr (ne_of_notMem h)

theorem reverse_cut (before after : List Char) :
    (before ++ mark :: after).reverse = after.reverse ++ mark :: before.reverse := by
  simp

theorem takeWhile_reverse_cut (h : mark ∉ after) (before : List Char) :
    (before ++ mark :: after).reverse.takeWhile (· != mark) = after.reverse := by
  rw [reverse_cut, takeWhile_cut (mt List.mem_reverse.mp h)]

theorem dropWhile_reverse_cut (h : mark ∉ after) (before : List Char) :
    (before ++ mark :: after).reverse.dropWhile (· != mark) = mark :: before.reverse := by
  rw [reverse_cut, dropWhile_cut (mt List.mem_reverse.mp h)]

/-- There is one place only at which a text can be cut at the first of a character. -/
theorem cut_first_unique {other rest : List Char}
    (h : before ++ mark :: after = other ++ mark :: rest) (hbefore : mark ∉ before)
    (hother : mark ∉ other) : before = other ∧ after = rest := by
  have hfront := congrArg (List.takeWhile (· != mark)) h
  rw [takeWhile_cut hbefore, takeWhile_cut hother] at hfront
  subst hfront
  exact ⟨rfl, (List.cons.inj (List.append_cancel_left h)).2⟩

/-- There is one place only at which a text can be cut at the last of a character. -/
theorem cut_last_unique {other rest : List Char}
    (h : before ++ mark :: after = other ++ mark :: rest) (hafter : mark ∉ after)
    (hrest : mark ∉ rest) : before = other ∧ after = rest := by
  have hback := congrArg (fun text : List Char => text.reverse.takeWhile (· != mark)) h
  rw [takeWhile_reverse_cut hafter, takeWhile_reverse_cut hrest, List.reverse_inj] at hback
  subst hback
  exact ⟨List.append_cancel_right h, rfl⟩

/-! ## Parts and cuts -/

/-- **The first part of a text** reaches to the first separator or, if there is none, to the end. -/
theorem splitAt_eq_cons_iff {part : List Char} {parts : List (List Char)} :
    splitAt mark text = part :: parts ↔ mark ∉ part ∧
      (text = part ∧ parts = [] ∨
        ∃ rest, text = part ++ mark :: rest ∧ splitAt mark rest = parts) := by
  by_cases hmark : mark ∈ text
  · obtain ⟨before, after, rfl, hbefore⟩ := exists_first hmark
    rw [splitAt_append, splitAt_of_notMem hbefore, List.singleton_append, List.cons.injEq]
    constructor
    · rintro ⟨rfl, rfl⟩
      exact ⟨hbefore, .inr ⟨after, rfl, rfl⟩⟩
    · rintro ⟨hpart, ⟨rfl, -⟩ | ⟨rest, heq, rfl⟩⟩
      · exact absurd hmark hpart
      · obtain ⟨rfl, rfl⟩ := cut_first_unique heq hbefore hpart
        exact ⟨rfl, rfl⟩
  · rw [splitAt_of_notMem hmark, List.cons.injEq]
    constructor
    · rintro ⟨rfl, rfl⟩
      exact ⟨hmark, .inl ⟨rfl, rfl⟩⟩
    · rintro ⟨-, ⟨rfl, rfl⟩ | ⟨rest, rfl, -⟩⟩
      · exact ⟨rfl, rfl⟩
      · exact absurd (List.mem_append_right part List.mem_cons_self) hmark


end FileLore.Text
