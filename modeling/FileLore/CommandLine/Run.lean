import FileLore.CommandLine.Collaborators
import FileLore.Graph.Update
import FileLore.Log.Filter
import FileLore.Source.Encoding
import FileLore.Source.Reading
import FileLore.Store.Summary

/-!
# Running a command

What a run of the program does and what comes of it. A command prints one answer
and, as long as it was understood, succeeds whatever becomes of files and calls;
only writing a configuration can fail. Calls are logged in the hook log
if there is one and the filter for messages lets them through. A filter that is
cut inside a character ends the run before anything is done.
-/

namespace FileLore

/-- Calls that have been sent, in the course of the same work. -/
structure SentDuring where
  work? : Option Log.Work
  calls : List SentCall

/-- What comes of a command: what it prints, or nothing if it fails, and the calls it has sent. -/
structure Answer where
  output : Option String
  sent : List SentDuring

/-- What comes of a run. -/
structure Outcome where
  exitCode : Nat
  output : String
  /-- The calls that were logged. -/
  logged : List SentCall
  /-- The hook log; none if no command was run. -/
  logFile : Option String

namespace Answer

/-- An answer without any calls. -/
def printed (text : String) : Answer := ⟨some text, []⟩

/-- The word for whether something was stored. -/
def stored (done : Bool) : Answer := printed (if done then "success" else "failed")

/-- The word for whether a call was taken. -/
def deliveryWord (done : Bool) : String := if done then "success" else "skipped"

/-- The answer for calls on which a word depends. -/
def ofDelivery (work? : Option Log.Work) (result : Bool × List SentCall) : Answer :=
  ⟨some (deliveryWord result.1), [⟨work?, result.2⟩]⟩

end Answer

/-- What an activity is said to be about unless told otherwise. -/
def standardDetails : String := "File operation"

/-- The message that a call is sent, as filters for messages see it. -/
def callMessage : Log.Message where
  target := "codecache_core::remote"
  level := .info
  fields := ["message", "service", "tool", "params"]

/-- Work on the knowledge graph, as filters for messages see it. -/
def graphWork (name : String) (fields : List (String × String)) : Log.Work :=
  ⟨"codecache_core::graph", name, fields⟩

/-- Work on issues and pull requests, as filters for messages see it. -/
def trackerWork (name : String) (fields : List (String × String)) : Log.Work :=
  ⟨"codecache_core::issues", name, fields⟩

/-- The name of a change, as filters for messages see it. -/
def FileChange.name : FileChange → String
  | created => "Create"
  | edited => "Edit"

/-- The version of the program. -/
def versionText : String := "codecache 0.1.0"

namespace Settings

/-- Records a change of a file and its imports in the graph. The answer speaks of the change
alone. -/
def record (settings : Settings) (surroundings : Surroundings) (change : FileChange) (file : String)
    (content : Option String) : FileTask Answer := do
  let source ← givenOrRead file content
  let executor := settings.graph.executor surroundings.network
  let (recorded, ofEntity) := Graph.recordEntity executor file change source []
  let (_, ofRelations) := Graph.recordRelationships executor file source []
  return {
    output := some (Answer.deliveryWord recorded)
    sent := [
      ⟨graphWork "record_entity" [("path", file), ("action", change.name)], ofEntity⟩,
      ⟨graphWork "record_relationships" [("path", file)], ofRelations⟩] }

/-- Carries out a command. -/
def perform (settings : Settings) (surroundings : Surroundings) : Command → FileTask Answer
  | .create file content => settings.record surroundings .created file content
  | .edit file content => settings.record surroundings .edited file content
  | .extract file content => do
    return Answer.printed (← recordFile file content).toJson.pretty
  | .storeFileContext file imports exports => do
    return Answer.stored (← settings.cache.storeLists file imports exports surroundings.now)
  | .storeImpactAnalysis file data => do
    return Answer.stored (← settings.cache.storeText .impact file data)
  | .storePatternViolations file data => do
    return Answer.stored (← settings.cache.storeText .violations file data)
  | .storeOptimizationMetrics file data => do
    return Answer.stored (← settings.cache.storeText .optimization file data)
  | .getContext file => do
    return Answer.printed ((← settings.cache.summary? file).getD "None")
  | .logActivity file details =>
    return Answer.ofDelivery none
      (Graph.recordActivity (settings.graph.executor surroundings.network) settings.project
        "log_activity" file (details.getD standardDetails) surroundings.now [])
  | .createTodosIssues file => do
    let source ← readSource file
    let executor := (settings.tracker surroundings).executor surroundings.network
    let (filed, sent) := Tracker.issuesFromMarkers executor file source []
    let work := trackerWork "issues_from_markers" [("path", file)]
    return ⟨some (Text.decimal filed), [⟨work, sent⟩]⟩
  | .notifyCriticalChange file changeType =>
    return Answer.ofDelivery
      (trackerWork "notify_critical_change" [("path", file), ("change_type", changeType)])
      (Tracker.notifyCriticalChange ((settings.tracker surroundings).executor surroundings.network)
        settings.project file changeType [])
  | .createFeaturePr branch base =>
    match branchSummary? surroundings branch base with
    | none => return Answer.printed (Answer.deliveryWord false)
    | some summary =>
      return Answer.ofDelivery
        (trackerWork "create_feature_pr" [("branch", branch), ("base", base)])
        (Tracker.createFeatureRequest
          ((settings.tracker surroundings).executor surroundings.network) summary [])
  | .configInit =>
    match surroundings.home? with
    | none => return ⟨none, []⟩
    | some home => do
      match ← Config.writeStandard home with
      | .ok path => return Answer.printed ("Config initialized at: " ++ path)
      | .error _ => return ⟨none, []⟩
  | .configShow => return ⟨settings.config.text?, []⟩

/-- Opens the hook log, and says whether that was possible. -/
def openLog (settings : Settings) : FileTask Bool := do
  match ← FileTask.request (.createDirectories settings.logsDirectory) with
  | .error _ => return false
  | .ok _ =>
    match ← FileTask.request (.appendFile settings.logFile ByteArray.empty) with
    | .error _ => return false
    | .ok _ => return true

/-- The line of the hook log for a call. -/
def logLine (now : Int) (sent : SentCall) : String :=
  timestamp now ++ "  INFO " ++ callMessage.target ++ ": remote call service=" ++ sent.service ++
    " tool=\"" ++ sent.tool ++ "\" params=" ++ sent.parameterText ++ "\n"

/-- Adds calls to the hook log. -/
def writeLog (settings : Settings) (now : Int) (sent : List SentCall) : FileTask Unit :=
  match sent with
  | [] => return ()
  | _ => do
    let lines := Text.joined "" (sent.map (logLine now))
    let _ ← FileTask.request (.appendFile settings.logFile lines.toUTF8)
    return ()

end Settings

/-- The outcome of a command line by which no command is run. -/
def Refusal.outcome : Refusal → Outcome
  | help => ⟨0, "", [], none⟩
  | version => ⟨0, versionText ++ "\n", [], none⟩
  | usage => ⟨2, "", [], none⟩

/-- The calls that a filter for messages lets through to the log. -/
def Answer.logged (answer : Answer) (filter : Log.Filter) : List SentCall :=
  answer.sent.flatMap fun sent =>
    if filter.passes sent.work?.toList callMessage then sent.calls else []

/-- The outcome of a run that breaks off. -/
def Outcome.brokenOff : Outcome := ⟨101, "", [], none⟩

/-- Carries out a command, with the hook log and a filter for messages. The log is opened even if
nothing will be logged, and its failing stops no command. -/
def Settings.performLogged (settings : Settings) (surroundings : Surroundings)
    (filter : Log.Filter) (command : Command) : FileTask Outcome := do
  let hasLog ← settings.openLog
  let answer ← settings.perform surroundings command
  let logged := if hasLog then answer.logged filter else []
  settings.writeLog surroundings.now logged
  return {
    exitCode := if answer.output.isSome then 0 else 1
    output := (answer.output.map (· ++ "\n")).getD ""
    logged := logged
    logFile := some settings.logFile }

/-- Runs the program with these arguments. -/
def runProgram (surroundings : Surroundings) (arguments : List String) : FileTask Outcome :=
  match Arguments.ofLine arguments with
  | .error refusal => return refusal.outcome
  | .ok (command, options) => do
    let settings ← Settings.resolve surroundings options
    match Log.Filter.ofSetting? (surroundings.valueOf? "RUST_LOG") with
    | some filter => settings.performLogged surroundings filter command
    | none => return Outcome.brokenOff

end FileLore
