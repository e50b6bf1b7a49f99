import FileLore.Store.Artifacts
import FileLore.Text.Compose

/-!
# Summaries

What is known about a file in at most three lines: its imports, its exports, and
how many files depend on it. An artifact that is missing or cannot be used only
takes its own lines away; without any line there is no summary.
-/

namespace FileLore

open Text (joined joinedLines)

/-- A line with a list; none for the empty list. -/
def listLine (label : String) (items : List String) : List String :=
  if items.isEmpty then [] else [label ++ joined ", " items]

/-- The lines on imports and exports. -/
def Context.summaryLines (context : Context) : List String :=
  listLine "Imports: " context.imports ++ listLine "Exports: " context.exports

/-- The line on dependent files, of which there has to be more than none. -/
def impactLines (count : Number) : List String :=
  if count.isPositive then ["Impact: " ++ String.ofList count.text ++ " dependent files"] else []

/-- The summary made of a context and a count of dependent files. -/
def summary? (context : Option Context) (count : Option Number) : Option String :=
  let lines := (context.map (·.summaryLines)).getD [] ++ (count.map impactLines).getD []
  if lines.isEmpty then none else some (joinedLines lines)

/-- What could be loaded; an error counts as nothing. -/
def loaded {α : Type} (result : Except Error (Option α)) : Option α :=
  match result with
  | .ok value => value
  | .error _ => none

/-- The summary of what is stored about a file. -/
def Cache.summary? (cache : Cache) (path : String) : FileTask (Option String) := do
  let context ← cache.loadContext path
  let count ← cache.loadImpactCount path
  return FileLore.summary? (loaded context) (loaded count)

end FileLore
