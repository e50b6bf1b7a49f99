import FileLore.Calendar
import FileLore.Json.Value
import FileLore.Source.Import
import FileLore.Source.Record
import FileLore.Text.Compose

/-!
# Graph nodes and edges

What the knowledge graph is told about a file: a node when it is new, an
observation added to the node when it is edited, an edge for every module that
it imports names from, and a node for an activity on it. Nodes of files go by
the base name, in all of these alike.
-/

namespace FileLore

open Text (decimal joined)

/-- A node of the knowledge graph. -/
structure Entity where
  name : String
  kind : String
  observations : List String
  deriving DecidableEq, Repr

namespace Entity

/-- The node as JSON. -/
def toJson (entity : Entity) : Json :=
  Json.ofMembers
    [("name", .string entity.name), ("entityType", .string entity.kind),
      ("observations", Json.ofTexts entity.observations)]

/-- The node of a new file. -/
def ofRecord (record : FileRecord) : Entity :=
  { name := record.name
    kind := record.role.tag
    observations :=
      ["File path: " ++ record.path, "Language: " ++ record.language.tag,
        "Component type: " ++ record.role.tag] ++ record.observations }

/-- The node of an activity on a file at a given instant. -/
def ofActivity (action path project details : String) (now : Int) : Entity :=
  { name := "Activity_" ++ action ++ "_" ++ Path.baseName path ++ "_" ++ instantText now
    kind := "activity"
    observations :=
      ["Action: " ++ action, "File: " ++ path, "Project: " ++ project, "Details: " ++ details,
        "Timestamp: " ++ timestamp now] }

end Entity

/-- Observations that are added to a node. -/
structure ObservationUpdate where
  entityName : String
  contents : List String
  deriving DecidableEq, Repr

namespace ObservationUpdate

/-- How many observations the summary of an edit quotes. -/
def previewLength : Nat := 3

/-- The update as JSON. -/
def toJson (update : ObservationUpdate) : Json :=
  Json.ofMembers
    [("entityName", .string update.entityName), ("contents", Json.ofTexts update.contents)]

/-- The summary of an edit of a file, with its first observations. -/
def ofRecord (record : FileRecord) : ObservationUpdate :=
  let heading :=
    "Modified " ++ record.path ++ " - " ++ decimal record.observations.length ++
      " elements detected"
  let quoted :=
    if record.observations.isEmpty then ""
    else ": " ++ joined ", " (record.observations.take previewLength)
  { entityName := record.name, contents := [heading ++ quoted] }

end ObservationUpdate

/-- An edge of the knowledge graph. -/
structure Relation where
  source : String
  target : String
  kind : String
  deriving DecidableEq, Repr

namespace Relation

/-- The edge as JSON. -/
def toJson (relation : Relation) : Json :=
  Json.ofMembers
    [("from", .string relation.source), ("to", .string relation.target),
      ("relationType", .string relation.kind)]

/-- The edges to the modules that a Python file imports names from; other files have none. -/
def ofImports (path source : String) : List Relation :=
  if ".py".toList.isSuffixOf path.toList then
    (importedModules source).map fun target => ⟨Path.baseName path, target, "imports"⟩
  else []

end Relation

end FileLore
