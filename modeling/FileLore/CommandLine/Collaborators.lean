import FileLore.CommandLine.Settings
import FileLore.Tracker.Filing
import FileLore.Tracker.Repository
import FileLore.Text.Line
import FileLore.Text.Utf8

/-!
# Collaborators of a run

The executors for the graph and for the issue tracker as the settings describe
them, and what version control says about branches. A part of the repository's
name that no setting gives is taken from the remote called origin, which is asked
about only then.
-/

namespace FileLore

/-- What version control prints for arguments, as text. -/
def Surroundings.versionControlText? (surroundings : Surroundings) (arguments : List String) :
    Option String :=
  (surroundings.versionControl arguments).map Text.lossyText

namespace Settings

/-- The executor for the knowledge graph. -/
def graph (settings : Settings) : Simulated :=
  Simulated.new "Memory graph"
    (.address settings.config.probeAddress settings.config.probeTimeout)

/-- The repository that the remote called origin leads to. -/
def originRepository? (surroundings : Surroundings) : Option Repository :=
  (surroundings.versionControlText? ["remote", "get-url", "origin"]).bind Repository.ofRemote?

/-- The owner and the name of the repository: as set, or as the remote says. -/
def coordinates (settings : Settings) (surroundings : Surroundings) :
    Option String × Option String :=
  let config := settings.config
  let detected :=
    if config.owner.isNone || config.repository.isNone then originRepository? surroundings
    else none
  (config.owner <|> detected.map (·.owner), config.repository <|> detected.map (·.name))

/-- The executor with a parameter, if it has a value. -/
def withText (name : String) (value : Option String) (simulated : Simulated) : Simulated :=
  match value with
  | some text => simulated.withParameter name (.string text)
  | none => simulated

/-- The executor for the issue tracker. -/
def tracker (settings : Settings) (surroundings : Surroundings) : Simulated :=
  let (owner, repository) := settings.coordinates surroundings
  let token := surroundings.valueOf? settings.config.tokenVariable
  withText "repo" repository
    (withText "owner" owner
      (Simulated.new "GitHub" (.credentials token owner repository)))

end Settings

/-- The number of commits that version control prints, with white space around it and perhaps a plus
sign before it. -/
def commitCount? (text : String) : Option Nat :=
  let digits :=
    match Text.trim text.toList with
    | '+' :: rest => rest
    | all => all
  match Text.natOfText? digits with
  | some count => if count < Nat.pow 2 64 then some count else none
  | none => none

/-- The commits of a branch that are not on its base; none if there is no such branch or version
control does not answer. -/
def branchSummary? (surroundings : Surroundings) (branch base : String) :
    Option BranchSummary := do
  let _ ← surroundings.versionControl ["rev-parse", "--verify", branch]
  let range := base ++ ".." ++ branch
  let counted ← surroundings.versionControlText? ["rev-list", "--count", range]
  let count ← commitCount? counted
  let listed ← surroundings.versionControlText? ["log", "--oneline", range]
  return {
    branch := branch
    base := base
    commitCount := count
    commits := (Text.lines listed.toList).map String.ofList }

end FileLore
