import FileLore.Text.Blank
import Mathlib.Data.List.Infix

/-!
# Trimmed texts

Trimming takes nothing away between two characters that are no white space, so a part
of a text is a part of the trimmed text once it is trimmed itself (`trim_infix_trim`).
-/

namespace FileLore.Text

variable {part text : List Char}

/-- White space in front of a character that is none is skipped. -/
theorem trimStart_append {gap rest : List Char} (hgap : ∀ c ∈ gap, isBlank c = true) {c : Char}
    (hc : isBlank c = false) : trimStart (gap ++ c :: rest) = c :: rest := by
  unfold trimStart
  rw [List.dropWhile_append_of_pos hgap, List.dropWhile_cons, hc]
  rfl

/-- Whether a text begins with no white space. -/
def IsTight (text : List Char) : Prop := ∀ c ∈ text.head?, isBlank c = false

theorem isTight_trimStart (text : List Char) : IsTight (trimStart text) := by
  intro c hc
  rw [trimStart, Option.mem_def] at hc
  have hhead := List.head?_dropWhile_not isBlank text
  rw [hc] at hhead
  exact hhead

theorem IsTight.mono (h : IsTight text) (hpart : part <+: text) : IsTight part := by
  intro c hc
  obtain ⟨rest, rfl⟩ := List.head?_eq_some_iff.mp hc
  obtain ⟨more, rfl⟩ := hpart
  exact h c rfl

/-- Only white space is taken away at the start. -/
theorem IsTight.infix_trimStart (htight : IsTight part) (h : part <:+: text) :
    part <:+: trimStart text := by
  obtain ⟨before, after, rfl⟩ := h
  cases part with
  | nil => exact List.nil_infix
  | cons c rest =>
    have hc : isBlank c = false := htight c rfl
    induction before with
    | nil =>
      rw [List.nil_append, List.cons_append, trimStart, List.dropWhile_cons, hc]
      exact (List.prefix_append (c :: rest) after).isInfix
    | cons d before ih =>
      rw [List.cons_append, List.cons_append, trimStart, List.dropWhile_cons]
      split
      · exact ih
      · exact ⟨d :: before, after, rfl⟩

/-- Only white space is taken away at the end. -/
theorem IsTight.infix_trimEnd (htight : IsTight part.reverse) (h : part <:+: text) :
    part <:+: trimEnd text := by
  have hreverse := htight.infix_trimStart (List.reverse_infix.mpr h)
  rw [← List.reverse_infix, trimEnd, List.reverse_reverse]
  exact hreverse

theorem trimEnd_isPrefix (text : List Char) : trimEnd text <+: text := by
  rw [← List.reverse_suffix, trimEnd, List.reverse_reverse]
  exact List.dropWhile_suffix isBlank

/-- White space behind a character that is none is taken away. -/
theorem trimEnd_append {gap : List Char} (hgap : ∀ c ∈ gap, isBlank c = true) {c : Char}
    (hc : isBlank c = false) : trimEnd (text ++ c :: gap) = text ++ [c] := by
  have hreverse : (text ++ c :: gap).reverse = gap.reverse ++ c :: text.reverse := by simp
  have hstart := @trimStart_append gap.reverse text.reverse
    (fun d hd => hgap d (List.mem_reverse.mp hd)) c hc
  rw [trimStart] at hstart
  rw [trimEnd, hreverse, hstart, List.reverse_cons, List.reverse_reverse]

theorem trim_isInfix (text : List Char) : trim text <:+: text :=
  (trimEnd_isPrefix _).isInfix.trans (List.dropWhile_suffix isBlank).isInfix

/-- **A part of a text is a part of the trimmed text** once it is trimmed itself. -/
theorem trim_infix_trim (h : part <:+: text) : trim part <:+: trim text := by
  have hstart : IsTight (trim part) := (isTight_trimStart part).mono (trimEnd_isPrefix _)
  have hend : IsTight (trim part).reverse := by
    rw [trim, trimEnd, List.reverse_reverse]
    exact isTight_trimStart _
  exact hend.infix_trimEnd (hstart.infix_trimStart ((trim_isInfix part).trans h))

/-- Trimming takes away the white space around a text that neither begins nor ends with any. -/
theorem trim_surrounded {before after : List Char} (hbefore : ∀ c ∈ before, isBlank c = true)
    (hafter : ∀ c ∈ after, isBlank c = true) (hstart : IsTight text)
    (hend : IsTight text.reverse) (hne : text ≠ []) : trim (before ++ (text ++ after)) = text := by
  obtain ⟨first, rest, htext⟩ := List.exists_cons_of_ne_nil hne
  obtain ⟨init, last, rfl⟩ := (List.eq_nil_or_concat text).resolve_left hne
  rw [List.concat_eq_append] at *
  have hfirst : isBlank first = false := hstart first (by rw [htext]; rfl)
  have hlast : isBlank last = false := hend last (by simp)
  have hkept : trimStart (before ++ (init ++ [last] ++ after)) = init ++ [last] ++ after := by
    rw [htext, List.cons_append, trimStart_append hbefore hfirst]
  rw [trim, hkept, List.append_assoc, List.singleton_append, trimEnd_append hafter hlast]

/-- A text with a character that is no white space is not empty once it is trimmed. -/
theorem trim_ne_nil {c : Char} (hc : isBlank c = false) (h : c ∈ text) : trim text ≠ [] := by
  obtain ⟨before, after, rfl⟩ := List.append_of_mem h
  have hpart : [c] <:+: before ++ c :: after := ⟨before, after, by simp⟩
  have htrim : trim [c] = [c] := by
    simp [trim, trimStart, trimEnd, hc]
  intro hnil
  have hinfix := trim_infix_trim hpart
  rw [htrim, hnil] at hinfix
  exact absurd (List.eq_nil_of_infix_nil hinfix) (List.cons_ne_nil c [])

end FileLore.Text
