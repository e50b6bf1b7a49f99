import FileLore.Graph.Entity
import FileLore.Remote.Executor

/-!
# Graph updates

The calls that tell the knowledge graph about files and activities. Each update
makes one call or none and says whether a call was taken. The content of a file
is handed in, if there is any; a file without content is not recorded, and a
file without imports has no relations to record.
-/

namespace FileLore

/-- What has happened to a file. -/
inductive FileChange where
  | created
  | edited
  deriving DecidableEq, Repr

namespace Graph

/-- A call whose only parameter is a list. -/
def listCall (tool name : String) (items : List Json) : Call :=
  ⟨tool, Json.ofMembers [(name, .array items)]⟩

/-- The call that adds nodes. -/
def createEntities (entities : List Entity) : Call :=
  listCall "mcp__memory__create_entities" "entities" (entities.map (·.toJson))

/-- The call that adds observations to nodes. -/
def addObservations (updates : List ObservationUpdate) : Call :=
  listCall "mcp__memory__add_observations" "observations" (updates.map (·.toJson))

/-- The call that adds edges. -/
def createRelations (relations : List Relation) : Call :=
  listCall "mcp__memory__create_relations" "relations" (relations.map (·.toJson))

/-- The call that a change of a file with this content leads to. -/
def entityCall? (path : String) (change : FileChange) (source? : Option String) : Option Call :=
  let record := FileRecord.of path source?
  if record.analyzed then
    match change with
    | .created => some (createEntities [Entity.ofRecord record])
    | .edited => some (addObservations [ObservationUpdate.ofRecord record])
  else none

/-- The call that the imports of a file with this content lead to. -/
def relationsCall? (path : String) (source? : Option String) : Option Call :=
  match Relation.ofImports path (source?.getD "") with
  | [] => none
  | relations => some (createRelations relations)

variable {σ : Type}

/-- Makes a call if there is one, and says whether it was made and taken. -/
def deliverAny (executor : Executor σ) : Option Call → StateM σ Bool
  | some call => executor.deliver call
  | none => return false

/-- Records a change of a file. -/
def recordEntity (executor : Executor σ) (path : String) (change : FileChange)
    (source? : Option String) : StateM σ Bool :=
  deliverAny executor (entityCall? path change source?)

/-- Records what a file imports. -/
def recordRelationships (executor : Executor σ) (path : String) (source? : Option String) :
    StateM σ Bool :=
  deliverAny executor (relationsCall? path source?)

/-- Records an activity on a file. -/
def recordActivity (executor : Executor σ) (project action path details : String) (now : Int) :
    StateM σ Bool :=
  executor.deliver (createEntities [Entity.ofActivity action path project details now])

end Graph

end FileLore
