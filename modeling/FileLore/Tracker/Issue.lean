import FileLore.Json.Value
import FileLore.Path
import FileLore.Source.Marker
import FileLore.Text.Compose

/-!
# Issue drafts

The issues that are drafted for comment markers and for changes of critical
files. The title of a marker's issue quotes the start of its text; the body
always has the whole text.
-/

namespace FileLore

open Text (decimal joinedLines)

/-- An issue that is ready to be filed. -/
structure IssueDraft where
  title : String
  body : String
  labels : List String
  deriving DecidableEq, Repr

namespace IssueDraft

/-- How many characters of a marker's text the title quotes. -/
def titleLength : Nat := 50

/-- The draft as JSON. -/
def toJson (draft : IssueDraft) : Json :=
  Json.ofMembers
    [("title", .string draft.title), ("body", .string draft.body),
      ("labels", Json.ofTexts draft.labels)]

/-- The text, cut short after the number of characters that a title has room for. -/
def quotedInTitle (text : String) : String :=
  if titleLength < text.length then String.ofList (text.toList.take titleLength) ++ "..."
  else text

/-- The label that issues for markers of a kind have besides the usual ones. -/
def kindLabel : MarkerKind → List String
  | .fixme => ["bug"]
  | .hack => ["technical-debt"]
  | .todo | .note => []

/-- The issue for a marker that was found in a file. -/
def ofMarker (marker : Marker) (file : String) : IssueDraft :=
  { title := marker.kind.tag ++ ": " ++ quotedInTitle marker.text
    body := joinedLines
      ["**File:** `" ++ file ++ "`  ",
        "**Line:** " ++ decimal marker.line ++ "  ",
        "**Type:** " ++ marker.kind.tag,
        "",
        "**Description:**",
        marker.text,
        "",
        "**Context:**",
        "```",
        marker.context,
        "```",
        "",
        "---",
        "*This issue was created automatically from a source comment marker.*"]
    labels := ["todo", "auto-generated"] ++ kindLabel marker.kind }

/-- The notice for a change of a critical file. -/
def ofCriticalChange (path changeType project : String) : IssueDraft :=
  { title := "Critical File Modified: " ++ Path.baseName path
    body := joinedLines
      ["**File:** `" ++ path ++ "`  ",
        "**Change Type:** " ++ changeType ++ "  ",
        "**Project:** " ++ project,
        "",
        "A critical file has been modified. Please review the changes to ensure they " ++
          "don't break existing functionality.",
        "",
        "**Why this is flagged as critical:**",
        "- This file appears to be part of core infrastructure, API, or configuration",
        "",
        "---",
        "*This notification was created automatically by a change hook.*"]
    labels := ["critical-change", "review-needed", "auto-generated"] }

end IssueDraft

end FileLore
