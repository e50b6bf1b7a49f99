import FileLore.Json.Fields
import FileLore.Json.Printer
import FileLore.Json.Reader
import FileLore.Source.Marker
import FileLore.Source.Record

/-!
# Records and markers as JSON

The JSON forms of file records and of markers, written and read. Whether a
record was made from any content is not part of its form, so a record that has
been read counts as not analyzed.
-/

namespace FileLore

/-- The value of a field that has to be there. -/
def Json.Spelling.required? {α : Type} (read : Json.Spelling → Option α)
    (field : Option Json.Spelling) : Option α :=
  field.bind read

namespace FileRecord

/-- The names of the fields in their order. -/
def fieldNames : List String := ["name", "path", "componentType", "language", "observations"]

/-- The record as JSON. -/
def toJson (record : FileRecord) : Json :=
  .object
    [("name", .string record.name), ("path", .string record.path),
      ("componentType", .string record.role.tag), ("language", .string record.language.tag),
      ("observations", Json.ofTexts record.observations)]

/-- The record that a JSON text holds. -/
def ofText? (text : String) : Option FileRecord := do
  let spelling ← Json.Spelling.ofText? text.toList
  match ← spelling.fields? fieldNames with
  | [name, path, role, language, observations] =>
    let name ← Json.Spelling.required? (·.text?) name
    let path ← Json.Spelling.required? (·.text?) path
    let role ← (← Json.Spelling.required? (·.tag?) role) |> Role.ofTag?
    let language ← (← Json.Spelling.required? (·.tag?) language) |> Language.ofTag?
    let observations ← Json.Spelling.required? (·.texts?) observations
    return ⟨name, path, role, language, observations, false⟩
  | _ => none

end FileRecord

namespace Marker

/-- The names of the fields in their order. -/
def fieldNames : List String := ["kind", "text", "line", "context"]

/-- The marker as JSON. -/
def toJson (marker : Marker) : Json :=
  .object
    [("kind", .string marker.kind.tag), ("text", .string marker.text),
      ("line", .number (.integer marker.line)), ("context", .string marker.context)]

/-- The line number that is spelled. -/
def lineOf? : Json.Spelling → Option Nat
  | .number number => number.unsigned?
  | _ => none

/-- The marker that a JSON text holds. -/
def ofText? (text : String) : Option Marker := do
  let spelling ← Json.Spelling.ofText? text.toList
  match ← spelling.fields? fieldNames with
  | [kind, text, line, context] =>
    let kind ← (← Json.Spelling.required? (·.tag?) kind) |> MarkerKind.ofTag?
    let text ← Json.Spelling.required? (·.text?) text
    let line ← Json.Spelling.required? lineOf? line
    let context ← Json.Spelling.required? (·.text?) context
    return ⟨kind, text, line, context⟩
  | _ => none

end Marker

/-- The tag of one of several cases that a JSON text holds. -/
def Json.tagOfText? (text : String) : Option String :=
  (Json.Spelling.ofText? text.toList).bind (·.tag?)

end FileLore
