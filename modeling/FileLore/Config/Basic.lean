/-!
# Configuration

The settings of a program run and the values that they have if nobody sets them.
-/

namespace FileLore

/-- The settings. -/
structure Config where
  /-- The directory of the cache, from the working directory on if it is relative. -/
  cacheRoot : String
  /-- The directory of the hook log. -/
  logsDirectory : String
  /-- The name of the project. -/
  projectName : Option String
  /-- The address that tells whether the graph can be reached. -/
  probeAddress : String
  /-- How long that address may take to answer, in milliseconds. -/
  probeTimeout : Nat
  /-- The variable of the environment that holds the token for the issue tracker. -/
  tokenVariable : String
  /-- The owner of the repository. -/
  owner : Option String
  /-- The name of the repository. -/
  repository : Option String
  deriving DecidableEq, Repr

namespace Config

/-- The settings that nobody has changed. -/
def standard : Config :=
  { cacheRoot := ".claude/knowledge"
    logsDirectory := ".claude/hooks/logs"
    projectName := none
    probeAddress := "localhost:7687"
    probeTimeout := 5000
    tokenVariable := "GITHUB_TOKEN"
    owner := none
    repository := none }

end Config

end FileLore
