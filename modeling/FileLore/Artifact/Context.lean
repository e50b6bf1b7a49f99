import FileLore.Json.Fields
import FileLore.Json.Printer
import FileLore.Text.Blank

/-!
# Context artifacts

What a file imports and exports, as it is stored in the context namespace. The
stored form is shared with other tools, so the order of its fields is fixed;
these tools write null for a field that is empty and may leave it out, and both
are read as the empty field.
-/

namespace FileLore

/-- The imports and exports of a file. -/
structure Context where
  /-- The path of the file. -/
  file : String
  imports : List String
  exports : List String
  /-- When the artifact was made. -/
  timestamp : String
  deriving DecidableEq, Repr

namespace Context

/-- The context of a file whose imports and exports are listed with white space between them. -/
def ofLists (file imports exports timestamp : String) : Context :=
  { file := file
    imports := (Text.words imports.toList).map String.ofList
    exports := (Text.words exports.toList).map String.ofList
    timestamp := timestamp }

/-- The names of the fields in their order. -/
def fieldNames : List String := ["file", "imports", "exports", "timestamp"]

/-- The context as JSON. -/
def toJson (context : Context) : Json :=
  .object
    [("file", .string context.file), ("imports", Json.ofTexts context.imports),
      ("exports", Json.ofTexts context.exports), ("timestamp", .string context.timestamp)]

/-- The stored form of the context. -/
def storedText (context : Context) : String :=
  context.toJson.pretty

/-- A field that may be absent or null, both of which stand for `empty`. -/
def fieldOr {α : Type} (empty : α) (read : Json.Spelling → Option α) :
    Option Json.Spelling → Option α
  | none => some empty
  | some .null => some empty
  | some value => read value

/-- The context that a JSON text holds. -/
def ofText? (text : String) : Option Context := do
  let spelling ← Json.Spelling.ofText? text.toList
  match ← spelling.fields? fieldNames with
  | [file, imports, exports, timestamp] =>
    let file ← fieldOr "" (·.text?) file
    let imports ← fieldOr [] (·.texts?) imports
    let exports ← fieldOr [] (·.texts?) exports
    let timestamp ← fieldOr "" (·.text?) timestamp
    return ⟨file, imports, exports, timestamp⟩
  | _ => none

end Context

end FileLore
