import FileLore.Text.Line
import Mathlib.Data.List.Basic

/-!
# Lines of texts put together

A line feed ends a line: the lines of a text around it are those up to it and those
behind it (`lines_append`), as many of the former as there are line feeds
(`length_lines_concat`). Without the line feed at its end a text has the same lines,
but for an empty last one (`lines_concat`), unless the line feed belongs to a
carriage return before it.
-/

namespace FileLore.Text

variable {text : List Char}

theorem linesFrom_append (after : List Char) (before : List Char) :
    ∀ opened, linesFrom opened (before ++ '\n' :: after) =
      linesFrom opened (before ++ ['\n']) ++ linesFrom [] after := by
  induction before with
  | nil => exact fun _ => rfl
  | cons c rest ih =>
    intro opened
    rw [List.cons_append, List.cons_append, linesFrom, linesFrom, ih, ih]
    split <;> rfl

/-- **The lines around a line feed** are those up to it and those behind it. -/
theorem lines_append (before after : List Char) :
    lines (before ++ '\n' :: after) = lines (before ++ ['\n']) ++ lines after :=
  linesFrom_append after before []

theorem length_linesFrom_concat (text : List Char) :
    ∀ opened, (linesFrom opened (text ++ ['\n'])).length = text.count '\n' + 1 := by
  induction text with
  | nil => exact fun _ => rfl
  | cons c rest ih =>
    intro opened
    rw [List.cons_append, linesFrom, List.count_cons]
    by_cases hc : c = '\n'
    · rw [if_pos hc, List.length_cons, ih, if_pos (beq_iff_eq.mpr hc)]
    · rw [if_neg hc, ih, if_neg (fun h => hc (beq_iff_eq.mp h))]

/-- Every line feed ends a line. -/
theorem length_lines_concat (text : List Char) :
    (lines (text ++ ['\n'])).length = text.count '\n' + 1 :=
  length_linesFrom_concat text []

theorem closeLine_of_head?_ne {opened : List Char} (h : opened.head? ≠ some '\r') :
    closeLine opened = opened.reverse := by
  unfold closeLine
  split
  · exact absurd rfl h
  · rfl

theorem notMem_closeLine {opened : List Char} (h : '\n' ∉ opened) : '\n' ∉ closeLine opened := by
  unfold closeLine
  split
  · exact fun hmem => h (List.mem_cons_of_mem _ (List.mem_reverse.mp hmem))
  · exact fun hmem => h (List.mem_reverse.mp hmem)

theorem linesFrom_concat (text : List Char) :
    ∀ opened, (opened.reverse ++ text).getLast? ≠ some '\r' →
      linesFrom opened (text ++ ['\n']) = linesFrom opened text ∨
        linesFrom opened (text ++ ['\n']) = linesFrom opened text ++ [[]] := by
  induction text with
  | nil =>
    intro opened hlast
    rw [List.append_nil, List.getLast?_reverse] at hlast
    have hline : linesFrom opened ([] ++ ['\n']) = [opened.reverse] := by
      show [closeLine opened] = _
      rw [closeLine_of_head?_ne hlast]
    rw [hline, linesFrom]
    cases opened with
    | nil => exact Or.inr rfl
    | cons c more => exact Or.inl rfl
  | cons c rest ih =>
    intro opened hlast
    rw [List.cons_append, linesFrom, linesFrom]
    by_cases hc : c = '\n'
    · subst hc
      rw [if_pos rfl, if_pos rfl, List.cons_append, List.cons_inj_right, List.cons_inj_right]
      refine ih [] fun hrest => hlast ?_
      rw [List.reverse_nil, List.nil_append] at hrest
      rw [List.getLast?_append, List.getLast?_cons, hrest]
      rfl
    · rw [if_neg hc, if_neg hc]
      exact ih (c :: opened) (by simpa using hlast)

/-- **A line feed at the end adds at most an empty line**, if there is no carriage return for it to
take away. -/
theorem lines_concat (h : text.getLast? ≠ some '\r') :
    lines (text ++ ['\n']) = lines text ∨ lines (text ++ ['\n']) = lines text ++ [[]] :=
  linesFrom_concat text [] h

theorem notMem_of_mem_linesFrom (text : List Char) :
    ∀ opened, '\n' ∉ opened → ∀ line ∈ linesFrom opened text, '\n' ∉ line := by
  induction text with
  | nil =>
    intro opened hopened line hline
    rw [linesFrom] at hline
    split at hline
    · cases hline
    · rw [List.mem_singleton.mp hline, List.mem_reverse]
      exact hopened
  | cons c rest ih =>
    intro opened hopened line hline
    rw [linesFrom] at hline
    by_cases hc : c = '\n'
    · rw [if_pos hc] at hline
      rcases List.mem_cons.mp hline with rfl | hline
      · exact notMem_closeLine hopened
      · exact ih [] List.not_mem_nil line hline
    · rw [if_neg hc] at hline
      refine ih (c :: opened) (fun hmem => ?_) line hline
      rcases List.mem_cons.mp hmem with heq | hmem
      · exact hc heq.symm
      · exact hopened hmem

/-- No line holds a line feed. -/
theorem notMem_of_mem_lines {line : List Char} (h : line ∈ lines text) : '\n' ∉ line :=
  notMem_of_mem_linesFrom text [] (List.not_mem_nil) line h

end FileLore.Text
