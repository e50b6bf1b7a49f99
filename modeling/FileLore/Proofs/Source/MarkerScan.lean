import FileLore.Proofs.Source.MarkerPattern
import FileLore.Proofs.Text.Line

/-!
# Scanning line by line

The markers of a source are those of its lines, each told from its line alone; so
they stand in the order of the lines, and the markers around a line feed are those
up to it and those behind it (`scan_lineByLine`).
-/

namespace FileLore.Marker

open Text

variable {source : String} {marker : Marker}

theorem onLines_eq (lines : List (List Char)) : ∀ number, onLines number lines =
    (lines.zipIdx number).filterMap fun numbered => ofLine? numbered.2 numbered.1 := by
  induction lines with
  | nil => exact fun _ => rfl
  | cons line rest ih =>
    intro number
    rw [onLines, List.zipIdx_cons, List.filterMap_cons, ← ih]
    cases ofLine? number line <;> rfl

theorem line_of_ofLine? {number : Nat} {line : List Char} (h : ofLine? number line = some marker) :
    marker.line = number := by
  obtain ⟨text, -, rfl⟩ := Option.map_eq_some_iff.mp h
  rfl

/-- The markers on lines stand in the order of the lines, the first of them on the first line or
farther down. -/
theorem onLines_sorted (lines : List (List Char)) :
    ∀ number, (∀ marker ∈ onLines number lines, number ≤ marker.line) ∧
      (onLines number lines).Pairwise (·.line < ·.line) := by
  induction lines with
  | nil => exact fun number => ⟨by nofun, List.Pairwise.nil⟩
  | cons line rest ih =>
    intro number
    obtain ⟨hafter, hsorted⟩ := ih (number + 1)
    have hlater : ∀ marker ∈ onLines (number + 1) rest, number ≤ marker.line := fun marker hmem =>
      Nat.le_of_succ_le (hafter marker hmem)
    rw [onLines]
    cases hmarker : ofLine? number line with
    | none => exact ⟨hlater, hsorted⟩
    | some first =>
      have hline : first.line = number := line_of_ofLine? hmarker
      refine ⟨fun marker hmem => ?_, List.pairwise_cons.mpr ⟨fun marker hmem => ?_, hsorted⟩⟩
      · rcases List.mem_cons.mp hmem with rfl | hmem
        · exact Nat.le_of_eq hline.symm
        · exact hlater marker hmem
      · rw [hline]
        exact hafter marker hmem

/-- The markers of a source stand in the order of their lines. -/
theorem scan_sorted (source : String) : (scan source).Pairwise (·.line < ·.line) :=
  (onLines_sorted _ 1).2

/-- **The markers of a source are those of its lines.** -/
theorem scan_eq (source : String) : scan source =
    ((lines source.toList).zipIdx 1).filterMap fun (line, number) => plainly? number line := by
  unfold scan
  rw [onLines_eq]
  refine List.filterMap_congr fun numbered hnumbered => ?_
  obtain ⟨line, number⟩ := numbered
  exact ofLine?_eq (notMem_of_mem_lines (List.fst_mem_of_mem_zipIdx hnumbered)) number

/-- Each marker is that of the line whose number it has; the first line is the line 1. -/
theorem mem_scan (h : marker ∈ scan source) :
    1 ≤ marker.line ∧ ∃ line, (lines source.toList)[marker.line - 1]? = some line ∧
      plainly? marker.line line = some marker := by
  rw [scan_eq] at h
  obtain ⟨⟨line, number⟩, hnumbered, hmarker⟩ := List.mem_filterMap.mp h
  obtain ⟨hfirst, hline⟩ := List.mk_mem_zipIdx_iff_le_and_getElem?_sub.mp hnumbered
  obtain ⟨form, after, text, -, -, rfl⟩ := plainly?_eq_some_iff.mp hmarker
  exact ⟨hfirst, line, hline, hmarker⟩

/-- The text of a marker is a part of its line. -/
theorem text_isInfix (h : marker ∈ scan source) :
    marker.text.toList <:+: marker.context.toList := by
  obtain ⟨-, line, -, hmarker⟩ := mem_scan h
  obtain ⟨form, after, text, hform, htext, heq⟩ := plainly?_eq_some_iff.mp hmarker
  have hinfix := MarkerForm.textBehind?_isInfix (formOn?_eq_some_iff.mp hform).1 htext
  rw [heq]
  simpa using trim_infix_trim hinfix

/-! ## Sources put together -/

/-- The marker as many lines farther down. -/
def shifted (count : Nat) (marker : Marker) : Marker :=
  { marker with line := marker.line + count }

theorem ofLine?_add (number count : Nat) (line : List Char) :
    ofLine? (number + count) line = (ofLine? number line).map (shifted count) := by
  unfold ofLine?
  rw [Option.map_map]
  rfl

theorem onLines_add (count : Nat) (lines : List (List Char)) : ∀ number,
    onLines (number + count) lines = (onLines number lines).map (shifted count) := by
  induction lines with
  | nil => exact fun _ => rfl
  | cons line rest ih =>
    intro number
    have hnext := ih (number + 1)
    rw [Nat.add_right_comm] at hnext
    rw [onLines, onLines, ofLine?_add, hnext]
    cases ofLine? number line <;> rfl

theorem onLines_append (lines others : List (List Char)) : ∀ number,
    onLines number (lines ++ others) =
      onLines number lines ++ onLines (number + lines.length) others := by
  induction lines with
  | nil => exact fun _ => rfl
  | cons line rest ih =>
    intro number
    have hcount : number + (line :: rest).length = number + 1 + rest.length := by
      rw [List.length_cons]
      omega
    rw [List.cons_append, onLines, onLines, ih, hcount]
    cases ofLine? number line <;> rfl

/-- **The markers around a line feed** are those up to it and those behind it, as many lines farther
down as end up to it. -/
theorem scan_append (before after : String) :
    scan (before ++ "\n" ++ after) =
      scan (before ++ "\n") ++ (scan after).map (shifted (before.toList.count '\n' + 1)) := by
  have hbefore : (before ++ "\n").toList = before.toList ++ ['\n'] := String.toList_append
  have hall : (before ++ "\n" ++ after).toList = before.toList ++ '\n' :: after.toList := by
    rw [String.toList_append, hbefore, List.append_assoc]
    rfl
  unfold scan
  rw [hall, hbefore, lines_append, onLines_append, length_lines_concat, onLines_add]

/-- An empty line has no marker. -/
theorem ofLine?_nil (number : Nat) : ofLine? number [] = none := by
  have hform : formOn? [] = none := rfl
  rw [ofLine?_eq List.not_mem_nil, plainly?, hform]
  rfl

/-- A line feed at the end makes no difference, unless it takes away a carriage return. -/
theorem scan_concat {before : String} (h : before.toList.getLast? ≠ some '\r') :
    scan (before ++ "\n") = scan before := by
  have hbefore : (before ++ "\n").toList = before.toList ++ ['\n'] := String.toList_append
  unfold scan
  rw [hbefore]
  rcases lines_concat h with heq | heq
  · rw [heq]
  · rw [heq, onLines_append, onLines, ofLine?_nil]
    exact List.append_nil _

/-- **Scanning goes line by line.** The markers of a source are those of its lines, each told from
its line alone: there is one for every line on which one of the forms stands, by the first of these
forms, at the first place where it stands. So the text of a marker is a part of its line, the lines
go up from marker to marker, and the markers around a line feed are those up to it and those behind
it; without the line feed those up to it are the same, unless there is a carriage return before
it. -/
theorem scan_lineByLine :
    (∀ source, scan source =
      ((lines source.toList).zipIdx 1).filterMap fun (line, number) => plainly? number line) ∧
    (∀ number line, (plainly? number line).isSome ↔
      ∃ form ∈ MarkerForm.all, form.StandsOn line) ∧
    (∀ line form after, formOn? line = some (form, after) → form.IsLeftmost after line ∧
      ∃ earlier later, MarkerForm.all = earlier ++ form :: later ∧
        ∀ other ∈ earlier, ¬other.StandsOn line) ∧
    (∀ source, (∀ marker ∈ scan source, marker.text.toList <:+: marker.context.toList) ∧
      (scan source).Pairwise (·.line < ·.line)) ∧
    ∀ before, (∀ after, scan (before ++ "\n" ++ after) =
        scan (before ++ "\n") ++ (scan after).map (shifted (before.toList.count '\n' + 1))) ∧
      (before.toList.getLast? ≠ some '\r' → scan (before ++ "\n") = scan before) := by
  refine ⟨scan_eq, plainly?_isSome_iff, ?_, ?_, ?_⟩
  · intro line form after hform
    obtain ⟨hafter, hfirst⟩ := formOn?_eq_some_iff.mp hform
    exact ⟨MarkerForm.isLeftmost_of_standsOn? hafter, hfirst⟩
  · exact fun source => ⟨fun marker => text_isInfix, scan_sorted source⟩
  · exact fun before => ⟨scan_append before, scan_concat⟩

/-- A line with three comments has one marker, by the form that comes first of those on it, with the
colon behind the keyword's own for its text. -/
theorem scan_lineByLine_crowded :
    let line := "// NOTE n # FIXME: b #todo::  "
    let form : MarkerForm := ⟨"#", .todo, false⟩
    let marker : Marker := ⟨.fixme, ":", 1, "// NOTE n # FIXME: b #todo::"⟩
    formOn? line.toList = some (form, [':', ':', ' ', ' ']) ∧
      form.IsLeftmost [':', ':', ' ', ' '] line.toList ∧
      marker ∈ scan line ∧ marker.text.toList <:+: marker.context.toList ∧
      line.toList.getLast? ≠ some '\r' ∧ scan (line ++ "\n") = scan line := by
  intro line form marker
  obtain ⟨-, -, hfound, hsource, haround⟩ := scan_lineByLine
  have hform : formOn? line.toList = some (form, [':', ':', ' ', ' ']) := by
    decide +kernel
  have hmarker : marker ∈ scan line := by decide +kernel
  have hlast : line.toList.getLast? ≠ some '\r' := by decide +kernel
  exact ⟨hform, (hfound _ _ _ hform).1, hmarker, (hsource line).1 marker hmarker, hlast,
    (haround line).2 hlast⟩

end FileLore.Marker
