import FileLore.Artifact.Context
import FileLore.Calendar
import FileLore.Json.Reader
import FileLore.Store.Cache

/-!
# Artifacts in the cache

Storing and loading by namespace. Contexts are stored in their JSON form and
stamped with the time; everything else is stored as the text that it comes as.
Of an impact artifact only the number of dependent files is ever looked at.
-/

namespace FileLore.Cache

/-- Whether something was stored. -/
def isStored (result : Except Error String) : Bool :=
  match result with
  | .ok _ => true
  | .error _ => false

/-- Stores a text as it is, and says whether it was stored. -/
def storeText (cache : Cache) (category : Namespace) (path payload : String) : FileTask Bool := do
  return isStored (← cache.store category path payload)

/-- Stores a context for a file. -/
def storeContext (cache : Cache) (path : String) (context : Context) :
    FileTask (Except Error String) :=
  cache.store .context path context.storedText

/-- Stores what a file imports and exports, each a list with white space between its items, with
the time of storing. -/
def storeLists (cache : Cache) (path imports exports : String) (now : Int) : FileTask Bool := do
  return isStored (← cache.storeContext path (Context.ofLists path imports exports (timestamp now)))

/-- The context of a file; none if none is stored. -/
def loadContext (cache : Cache) (path : String) : FileTask (Except Error (Option Context)) := do
  match ← cache.read .context path with
  | .error reason => return .error reason
  | .ok none => return .ok none
  | .ok (some text) =>
    match Context.ofText? text with
    | some context => return .ok (some context)
    | none => return .error .malformed

/-- The number that an impact artifact gives as its count. It need not give any, but a count that is
no number is refused. -/
def impactCountOf (text : String) : Except Error (Option Number) :=
  match Json.ofText? text with
  | none => .error .malformed
  | some value =>
    match value.member? "count" with
    | none => .ok none
    | some (.number count) => .ok (some count)
    | some other => .error (.validation ("impact count is not a number: " ++ other.compact))

/-- How many files depend on a file; none if nothing is stored about it. -/
def loadImpactCount (cache : Cache) (path : String) :
    FileTask (Except Error (Option Number)) := do
  match ← cache.read .impact path with
  | .error reason => return .error reason
  | .ok none => return .ok none
  | .ok (some text) => return impactCountOf text

end FileLore.Cache
