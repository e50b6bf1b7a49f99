import FileLore.Pattern.Search

/-!
# Critical paths

Paths whose changes call for a review: those through a directory of interfaces,
models or schemas, those of configuration, and the files that say how a project
is put together.
-/

namespace FileLore

open Pattern

/-- A slash on the line that the pattern is searched for, whatever stands before it. -/
def afterSlash (body : Pattern) : Pattern :=
  sequence [many (· != '\n'), literal "/", body]

/-- A fixed text at the end of the path. -/
def atPathEnd (body : Pattern) : Pattern :=
  seq body atEnd

/-- The patterns of critical paths. -/
def criticalPatterns : List Pattern :=
  [afterSlash (sequence
      [either (literal "api") (seq (literal "route") (optional (literal "s"))), literal "/"]),
    afterSlash (sequence [literal "model", optional (literal "s"), literal "/"]),
    afterSlash (literal "schema/"),
    afterSlash (either (literal "config") (literal "settings")),
    atPathEnd (literal "package.json"),
    atPathEnd (literal "requirements.txt"),
    atPathEnd (literal "go.mod"),
    atPathEnd (literal "Dockerfile"),
    atPathEnd (sequence
      [literal "docker-compose.y", optional (literal "a"), literal "ml"])]

/-- Whether a change of the file at `path` calls for a review: some pattern is found in the path. -/
def isCriticalPath (path : String) : Bool :=
  criticalPatterns.any (·.isFoundIn path.toList)

end FileLore
