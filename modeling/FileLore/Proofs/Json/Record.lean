import FileLore.Artifact.Context
import FileLore.Source.Encoding
import FileLore.Proofs.Json.Written

/-!
# Records read back

Contexts, file records and markers are written as objects with a member for each
field. Read back, each gives the value that was written (`Context.ofText?_form`,
`FileRecord.ofText?_form`, `Marker.ofText?_form`); only whether a file record was made
from any content is not written, so a record that is read counts as not analyzed.

Texts of other forms are read as well: fields in another order, among members of other
names, as the items of an array. What has been read from any of them is of the kind
that writing and reading leave as it is (`Settles`).
-/

namespace FileLore

open Json

/-- The spelling of a list of texts. -/
def Json.stringsSpelling (texts : List String) : Spelling :=
  .array (texts.map fun text => .string (some text))

theorem Json.spelling?_ofTexts (texts : List String) :
    (ofTexts texts).spelling? = some (stringsSpelling texts) := by
  have hitems : itemSpellings? (texts.map string) =
      some (texts.map fun text => .string (some text)) := by
    induction texts with
    | nil => rfl
    | cons text more ih => simp [itemSpellings?, spelling?, ih]
  simp [ofTexts, spelling?, hitems, stringsSpelling]

theorem Json.Spelling.texts?_stringsSpelling (texts : List String) :
    (stringsSpelling texts).texts? = some texts := by
  rw [stringsSpelling, Spelling.texts?]
  induction texts with
  | nil => rfl
  | cons text more ih => simp [List.mapM_cons, Spelling.text?, ih]

namespace Context

/-- A context is written with all of its fields, in their order. -/
theorem spelling?_toJson (context : Context) :
    context.toJson.spelling? = some (.object
      [(some "file", .string (some context.file)),
        (some "imports", stringsSpelling context.imports),
        (some "exports", stringsSpelling context.exports),
        (some "timestamp", .string (some context.timestamp))]) := by
  simp [toJson, spelling?, memberSpellings?, spelling?_ofTexts]

/-- **A context is read back as it was written.** -/
theorem ofText?_form {form : Json → String} (hform : form ∈ forms) (context : Context) :
    ofText? (form context.toJson) = some context := by
  have htext (text : String) : fieldOr "" (·.text?) (some (.string (some text))) = some text := rfl
  have htexts (texts : List String) :
      fieldOr [] (·.texts?) (some (stringsSpelling texts)) = some texts :=
    Spelling.texts?_stringsSpelling texts
  rw [ofText?, ofText?_of_mem_forms hform context.spelling?_toJson]
  simp [Spelling.fields?, fieldNames, Spelling.valuesOf, Spelling.single?, htext, htexts]

end Context

namespace FileRecord

theorem spelling?_toJson (record : FileRecord) :
    record.toJson.spelling? = some (.object
      [(some "name", .string (some record.name)), (some "path", .string (some record.path)),
        (some "componentType", .string (some record.role.tag)),
        (some "language", .string (some record.language.tag)),
        (some "observations", stringsSpelling record.observations)]) := by
  simp [toJson, spelling?, memberSpellings?, spelling?_ofTexts]

theorem ofTag?_role (role : Role) : Role.ofTag? role.tag = some role := by
  cases role <;> decide

theorem ofTag?_language (language : Language) : Language.ofTag? language.tag = some language := by
  cases language <;> decide

/-- **A file record is read back as it was written**, but counts as not analyzed. -/
theorem ofText?_form {form : Json → String} (hform : form ∈ forms) (record : FileRecord) :
    ofText? (form record.toJson) = some { record with analyzed := false } := by
  rw [ofText?, ofText?_of_mem_forms hform record.spelling?_toJson]
  simp [Spelling.fields?, fieldNames, Spelling.valuesOf, Spelling.single?, Spelling.required?,
    Spelling.text?, Spelling.tag?, Spelling.texts?_stringsSpelling, ofTag?_role, ofTag?_language]

/-- A file record that has been read counts as not analyzed. -/
theorem analyzed_of_ofText? {text : String} {record : FileRecord} (h : ofText? text = some record) :
    record.analyzed = false := by
  unfold ofText? at h
  obtain ⟨spelling, -, h⟩ := Option.bind_eq_some_iff.mp h
  obtain ⟨fields, -, h⟩ := Option.bind_eq_some_iff.mp h
  split at h
  next =>
    simp only [Option.bind_eq_bind, Option.bind_eq_some_iff, Option.pure_def,
      Option.some.injEq] at h
    obtain ⟨name, -, path, -, roleTag, -, role, -, languageTag, -, language, -, texts, -, rfl⟩ := h
    rfl
  next => cases h

end FileRecord

namespace Marker

theorem spelling?_toJson (marker : Marker) :
    marker.toJson.spelling? = some (.object
      [(some "kind", .string (some marker.kind.tag)), (some "text", .string (some marker.text)),
        (some "line", .number (.ofInt marker.line)),
        (some "context", .string (some marker.context))]) := by
  simp [toJson, spelling?, memberSpellings?]

theorem ofTag?_kind (kind : MarkerKind) : MarkerKind.ofTag? kind.tag = some kind := by
  cases kind <;> decide

/-- **A marker is read back as it was written**, if 64 bits hold the number of its line. -/
theorem ofText?_form {form : Json → String} (hform : form ∈ forms) (marker : Marker)
    (hline : marker.line ≤ NumberSpelling.greatestWhole) :
    ofText? (form marker.toJson) = some marker := by
  rw [ofText?, ofText?_of_mem_forms hform marker.spelling?_toJson]
  simp [Spelling.fields?, fieldNames, Spelling.valuesOf, Spelling.single?, Spelling.required?,
    Spelling.text?, Spelling.tag?, lineOf?, unsigned?_ofInt hline, ofTag?_kind]

/-- What is read as a whole number without a sign is one that 64 bits hold. -/
theorem unsigned?_le {number : NumberSpelling} {n : Nat} (h : number.unsigned? = some n) :
    n ≤ NumberSpelling.greatestWhole := by
  unfold NumberSpelling.unsigned? at h
  split at h
  next whole hvalue =>
    cases h
    unfold NumberSpelling.value? at hvalue
    dsimp only at hvalue
    split at hvalue
    next hfits =>
      simp only [Option.some.injEq, Number.integer.injEq, Int.ofNat_eq_natCast, Bool.and_eq_true,
        decide_eq_true_eq] at hvalue hfits
      omega
    next =>
      split at hvalue
      next hnegative =>
        -- A number below zero is none without a sign.
        simp only [Option.some.injEq, Number.integer.injEq, Int.ofNat_eq_natCast, Bool.and_eq_true,
          decide_eq_true_eq] at hvalue hnegative
        omega
      next =>
        obtain ⟨float, -, hfloat⟩ := Option.map_eq_some_iff.mp hvalue
        cases hfloat
  next => cases h

/-- The number of a line that has been read is one that 64 bits hold. -/
theorem line_of_ofText? {text : String} {marker : Marker} (h : ofText? text = some marker) :
    marker.line ≤ NumberSpelling.greatestWhole := by
  unfold ofText? at h
  obtain ⟨spelling, -, h⟩ := Option.bind_eq_some_iff.mp h
  obtain ⟨fields, -, h⟩ := Option.bind_eq_some_iff.mp h
  split at h
  next =>
    simp only [Spelling.required?, Option.bind_eq_bind, Option.bind_eq_some_iff, Option.pure_def,
      Option.some.injEq] at h
    obtain ⟨kindTag, -, kind, -, text, -, line, ⟨field, -, hline⟩, context, -, rfl⟩ := h
    unfold lineOf? at hline
    split at hline
    next number => exact unsigned?_le hline
    next => cases hline
  next => cases h

end Marker

/-! ## Written again -/

/-- Whether everything that a text is read as is left as it is by writing and reading: in either
form it is read back as the same value, which is written as the same text again. -/
def Settles {α : Type} (write : α → Json) (read? : String → Option α) : Prop :=
  ∀ form ∈ forms, ∀ text value, read? text = some value →
    read? (form (write value)) = some value ∧
      (read? (form (write value))).map (fun again => form (write again)) = some (form (write value))

/-- What is read back as it was written settles. -/
theorem settles_of_form {α : Type} {write : α → Json} {read? : String → Option α}
    (h : ∀ form ∈ forms, ∀ text value, read? text = some value →
      read? (form (write value)) = some value) : Settles write read? := by
  intro form hform text value hread
  have hagain := h form hform text value hread
  exact ⟨hagain, by rw [hagain, Option.map_some]⟩

theorem Context.settles : Settles Context.toJson Context.ofText? :=
  settles_of_form fun _ hform _ context _ => ofText?_form hform context

theorem FileRecord.settles : Settles FileRecord.toJson FileRecord.ofText? := by
  refine settles_of_form fun form hform text record hread => ?_
  rw [ofText?_form hform, ← analyzed_of_ofText? hread]

theorem Marker.settles : Settles Marker.toJson Marker.ofText? :=
  settles_of_form fun _ hform _ marker hread => ofText?_form hform marker (line_of_ofText? hread)

end FileLore
