import FileLore.Text.Search
import Mathlib.Data.List.Infix

/-!
# Where a text occurs

What it is for one text to begin another (`afterStart?_eq_some_iff`) or to occur in
it (`occurs_iff`).
-/

namespace FileLore.Text

variable {needle text rest : List Char}

/-- **A text occurs in another** if it is a part of it. -/
theorem occurs_iff : occurs needle text = true ↔ needle <:+: text := by
  induction text with
  | nil => rw [occurs, List.isEmpty_iff, List.infix_nil]
  | cons c rest ih =>
    rw [occurs, Bool.or_eq_true, List.isPrefixOf_iff_prefix, ih, List.infix_cons_iff]

/-- **What follows the start of a text** makes up the text together with it. -/
theorem afterStart?_eq_some_iff {start : List Char} :
    afterStart? start text = some rest ↔ text = start ++ rest := by
  induction start generalizing text with
  | nil => exact Option.some_inj
  | cons a start ih =>
    cases text with
    | nil => exact ⟨nofun, nofun⟩
    | cons b text =>
      rw [afterStart?]
      by_cases h : a = b
      · rw [if_pos h, ih, h, List.cons_append, List.cons_inj_right]
      · rw [if_neg h]
        exact ⟨nofun, fun heq => absurd (List.cons.inj heq).1.symm h⟩

theorem beforeEnd?_eq_some_iff {finish : List Char} :
    beforeEnd? finish text = some rest ↔ text = rest ++ finish := by
  rw [beforeEnd?, Option.map_eq_some_iff]
  constructor
  · rintro ⟨back, hback, rfl⟩
    rw [← List.reverse_inj, afterStart?_eq_some_iff.mp hback]
    simp
  · intro h
    refine ⟨rest.reverse, afterStart?_eq_some_iff.mpr ?_, List.reverse_reverse rest⟩
    rw [h, List.reverse_append]

end FileLore.Text
