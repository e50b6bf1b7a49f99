import FileLore.Json.Value
import FileLore.Text.Compose
import FileLore.Text.TitleCase

/-!
# Draft pull requests

A feature branch with enough commits gets a draft pull request, whose body lists
the newest of them and counts the others.
-/

namespace FileLore

open Text (decimal joinedLines)

/-- The commits of a branch that are not on its base. -/
structure BranchSummary where
  branch : String
  base : String
  commitCount : Nat
  /-- A line for each commit, the newest first. -/
  commits : List String
  deriving DecidableEq, Repr

/-- A pull request that is ready to be opened. -/
structure PullRequest where
  title : String
  body : String
  head : String
  base : String
  isDraft : Bool
  deriving DecidableEq, Repr

namespace PullRequest

/-- A branch with fewer commits gets no pull request. -/
def leastCommits : Nat := 3

/-- How many commits the body lists. -/
def previewLength : Nat := 5

/-- The pull request as JSON. -/
def toJson (request : PullRequest) : Json :=
  Json.ofMembers
    [("title", .string request.title), ("body", .string request.body),
      ("head", .string request.head), ("base", .string request.base),
      ("draft", .bool request.isDraft)]

/-- The lines for the commits: the first ones, and how many there are besides. -/
def commitLines (summary : BranchSummary) : List String :=
  (summary.commits.take previewLength).map ("- " ++ ·) ++
    if previewLength < summary.commitCount then
      ["- ... and " ++ decimal (summary.commitCount - previewLength) ++ " more commits"]
    else []

/-- The title for a branch: its name in title case with blanks for hyphens. -/
def titleOf (branch : String) : String :=
  "Draft: " ++
    Text.titleCase (String.ofList (branch.toList.map fun c => if c = '-' then ' ' else c))

/-- The pull request for a feature branch; none if it has too few commits. -/
def ofSummary? (summary : BranchSummary) : Option PullRequest :=
  if summary.commitCount < leastCommits then none
  else
    some
      { title := titleOf summary.branch
        body := joinedLines
          ["## Summary",
            "Draft pull request for feature branch `" ++ summary.branch ++ "`.",
            "",
            "## Commits (" ++ decimal summary.commitCount ++ ")",
            joinedLines (commitLines summary),
            "",
            "---",
            "*This pull request was created automatically by a change hook.*"]
        head := summary.branch
        base := summary.base
        isDraft := true }

end PullRequest

end FileLore
