import FileLore.Proofs.Source.MarkerScan
import FileLore.Proofs.Text.Document
import FileLore.Tracker.Issue

/-!
# Issues say what the marker says

The issue drafted for a marker of a source has a title of one short line, and its body
gives the whole text of the marker, the number of the line that it stands on, and this line
(`ofMarker_faithful`). A line of a source has no line feed, so nor has the text of a marker
(`Marker.notMem_text`), and each of them takes up exactly one line of the body; whatever
the name of the file does to the lines in front of these, those after it are fixed.
-/

namespace FileLore

open Text

/-! ## Where a marker stands -/

namespace Marker

variable {source : String} {marker : Marker}

/-- A marker is numbered by its line, counted from one, and shows this line trimmed. -/
theorem exists_line (h : marker ∈ scan source) :
    ∃ index line, (lines source.toList)[index]? = some line ∧ marker.line = index + 1 ∧
      marker.context = String.ofList (trim line) := by
  rw [scan_eq] at h
  obtain ⟨⟨line, number⟩, hnumbered, hmarker⟩ := List.mem_filterMap.mp h
  obtain ⟨hone, hline⟩ := List.mk_mem_zipIdx_iff_le_and_getElem?_sub.mp hnumbered
  obtain ⟨form, after, text, -, -, rfl⟩ := plainly?_eq_some_iff.mp hmarker
  exact ⟨number - 1, line, hline, (Nat.sub_add_cancel hone).symm, rfl⟩

theorem notMem_context (h : marker ∈ scan source) : '\n' ∉ marker.context.toList := by
  obtain ⟨index, line, hline, -, hcontext⟩ := exists_line h
  rw [hcontext, String.toList_ofList]
  exact fun hmem => notMem_of_mem_lines (List.mem_of_getElem? hline) ((trim_isInfix line).mem hmem)

/-- The text of a marker is on one line. -/
theorem notMem_text (h : marker ∈ scan source) : '\n' ∉ marker.text.toList :=
  fun hmem => notMem_context h ((text_isInfix h).mem hmem)

end Marker

/-! ## The draft -/

namespace IssueDraft

variable {source : String} {marker : Marker} {text : String}

theorem quotedInTitle_of_le (h : text.length ≤ 50) : quotedInTitle text = text :=
  if_neg (Nat.not_lt.mpr h)

/-- A text that is too long for a title is cut between two of its characters. -/
theorem quotedInTitle_of_lt (h : 50 < text.length) : ∃ quoted rest, text = quoted ++ rest ∧
    quoted.length = 50 ∧ quotedInTitle text = quoted ++ "..." := by
  refine ⟨String.ofList (text.toList.take 50), String.ofList (text.toList.drop 50), ?_, ?_,
    if_pos h⟩
  · rw [← String.ofList_append, List.take_append_drop, String.ofList_toList]
  · rw [← String.length_toList] at h
    rw [String.length_ofList, List.length_take, Nat.min_eq_left (Nat.le_of_lt h)]

theorem length_quotedInTitle (text : String) : (quotedInTitle text).length ≤ 53 := by
  by_cases h : text.length ≤ 50
  · rw [quotedInTitle_of_le h]
    omega
  · obtain ⟨quoted, rest, -, hlength, hquoted⟩ := quotedInTitle_of_lt (Nat.not_le.mp h)
    rw [hquoted, String.length_append, hlength]
    decide

theorem notMem_quotedInTitle (h : '\n' ∉ text.toList) : '\n' ∉ (quotedInTitle text).toList := by
  by_cases hlength : text.length ≤ 50
  · rwa [quotedInTitle_of_le hlength]
  · obtain ⟨quoted, rest, rfl, -, hquoted⟩ := quotedInTitle_of_lt (Nat.not_le.mp hlength)
    rw [String.toList_append, List.mem_append, not_or] at h
    rw [hquoted]
    simpa using h.1

theorem notMem_tag (kind : MarkerKind) : '\n' ∉ kind.tag.toList := by
  cases kind <;> decide

theorem length_tag (kind : MarkerKind) : kind.tag.length ≤ 5 := by
  cases kind <;> decide

/-- Whether a draft is well formed and says what a marker of a source says. Its title is one line of
at most sixty characters that quotes the text of the marker, if need be the first fifty characters
of it; the lines of its body, after what the name of the file makes up, give the number of a line
of the source, the whole text, and this line; and it has one label for each kind that calls for one,
besides the two that all have. -/
structure IsFaithful (source file : String) (marker : Marker) (draft : IssueDraft) : Prop where
  titleLine : '\n' ∉ draft.title.toList
  titleLength : draft.title.length ≤ 60
  titleWhole : marker.text.length ≤ 50 → draft.title = marker.kind.tag ++ ": " ++ marker.text
  titleCut : 50 < marker.text.length → ∃ quoted rest, marker.text = quoted ++ rest ∧
    quoted.length = 50 ∧ draft.title = marker.kind.tag ++ ": " ++ quoted ++ "..."
  body : ∃ index line, (lines source.toList)[index]? = some line ∧
    linesOf draft.body = linesOf ("**File:** `" ++ file ++ "`  ") ++
      ["**Line:** " ++ toString (index + 1) ++ "  ", "**Type:** " ++ marker.kind.tag, "",
        "**Description:**", marker.text, "",
        "**Context:**", "```", String.ofList (trim line), "```", "", "---",
        "*This issue was created automatically from a source comment marker.*"]
  usualLabels : "todo" ∈ draft.labels ∧ "auto-generated" ∈ draft.labels
  bug : "bug" ∈ draft.labels ↔ marker.kind = .fixme
  debt : "technical-debt" ∈ draft.labels ↔ marker.kind = .hack
  noOtherLabels : ∀ label ∈ draft.labels,
    label ∈ ["todo", "auto-generated", "bug", "technical-debt"]

theorem linesOf_body (htext : '\n' ∉ marker.text.toList) (hcontext : '\n' ∉ marker.context.toList)
    (file : String) : linesOf (ofMarker marker file).body =
      linesOf ("**File:** `" ++ file ++ "`  ") ++
        ["**Line:** " ++ toString marker.line ++ "  ", "**Type:** " ++ marker.kind.tag, "",
          "**Description:**", marker.text, "", "**Context:**", "```", marker.context, "```", "",
          "---", "*This issue was created automatically from a source comment marker.*"] := by
  have hline : '\n' ∉ ("**Line:** " ++ toString marker.line ++ "  ").toList := by
    simpa using notMem_toString marker.line
  have hkind : '\n' ∉ ("**Type:** " ++ marker.kind.tag).toList := by
    simpa using notMem_tag marker.kind
  rw [ofMarker, decimal_eq, linesOf_joinedLines (List.cons_ne_nil _ _)]
  simp only [List.flatMap_cons, List.flatMap_nil, linesOf_of_notMem hline, linesOf_of_notMem hkind,
    linesOf_of_notMem htext, linesOf_of_notMem hcontext]
  rfl

/-- **Every issue drafted for a marker of a source is well formed and faithful**, whatever the
source and the name of the file are. -/
theorem ofMarker_faithful (source file : String) : ∀ marker ∈ Marker.scan source,
    IsFaithful source file marker (ofMarker marker file) := by
  intro marker hmarker
  have htext := Marker.notMem_text hmarker
  obtain ⟨index, line, hline, hnumber, hcontext⟩ := Marker.exists_line hmarker
  have htitle : (ofMarker marker file).title =
      marker.kind.tag ++ ": " ++ quotedInTitle marker.text := rfl
  have hlabels : (ofMarker marker file).labels =
      ["todo", "auto-generated"] ++ kindLabel marker.kind := rfl
  constructor
  case titleLine =>
    have htag := notMem_tag marker.kind
    have hquoted := notMem_quotedInTitle htext
    simp [htitle, htag, hquoted]
  case titleLength =>
    have htag := length_tag marker.kind
    have hquoted := length_quotedInTitle marker.text
    have hcolon : ": ".length = 2 := by decide
    rw [htitle, String.length_append, String.length_append, hcolon]
    omega
  case titleWhole =>
    intro hshort
    rw [htitle, quotedInTitle_of_le hshort]
  case titleCut =>
    intro hlong
    obtain ⟨quoted, rest, heq, hlength, hquoted⟩ := quotedInTitle_of_lt hlong
    exact ⟨quoted, rest, heq, hlength, by rw [htitle, hquoted, ← String.append_assoc]⟩
  case body =>
    refine ⟨index, line, hline, ?_⟩
    rw [linesOf_body htext (Marker.notMem_context hmarker), hnumber, hcontext]
  -- The labels depend on the kind alone.
  all_goals
    rw [hlabels]
    cases marker.kind <;> decide

/-- Some letters of two bytes. -/
def accented (count : Nat) : String := String.ofList (List.replicate count 'é')

/-- The title of a text of fifty-one letters quotes fifty of them, and the line of the marker is the
second one, without the carriage return. -/
theorem ofMarker_faithful_accented :
    let source := "x = 1\r\n\t// fixme: " ++ accented 51 ++ " \r\n"
    let marker : Marker := ⟨.fixme, accented 51, 2, "// fixme: " ++ accented 51⟩
    let draft := ofMarker marker "a\nb.c"
    marker ∈ Marker.scan source ∧ IsFaithful source "a\nb.c" marker draft ∧
      draft.title = "FIXME: " ++ accented 50 ++ "..." ∧ "bug" ∈ draft.labels := by
  intro source marker draft
  have hmarker : marker ∈ Marker.scan source := by decide +kernel
  have hfaithful := ofMarker_faithful source "a\nb.c" marker hmarker
  exact ⟨hmarker, hfaithful, by decide +kernel, hfaithful.bug.mpr rfl⟩

end IssueDraft

end FileLore
