import FileLore.CommandLine.Run
import FileLore.Proofs.Disk.View
import FileLore.Proofs.Store.Name

/-!
# The files that a command works with

A command works with the hook log, with the cache or a source file if it is a command
of that kind, and with nothing else; only a new configuration file is written besides
(`perform_staysWithin`). It never takes anything out of the hook log, unless the log is
the source that it is to read.
-/

namespace FileLore

open Disk (View IsPlain)

variable {view : View}

/-! ## Sources -/

theorem readSource_staysWithin {file : String} (h : view.IsReadable file) :
    (readSource file).StaysWithin view := by
  refine ⟨h, fun answer => ?_⟩
  cases answer <;> trivial

theorem givenOrRead_staysWithin {file : String} {given : Option String}
    (h : given = none → view.IsReadable file) :
    (givenOrRead file given).StaysWithin view := by
  cases given with
  | none => exact readSource_staysWithin (h rfl)
  | some source => trivial

/-! ## The cache -/

namespace Cache

variable {cache : Cache}

/-- Whether a view shows a cache: its root keeps clear, and what is hidden and the log go by the names
of the configuration file and of the hook log, which no file in a cache has. -/
structure IsShown (cache : Cache) (view : View) : Prop where
  root : view.IsClear cache.root
  hidden : view.hidden.getLast? = some "codecache.toml"
  log : view.log.getLast? = some "hooks.log"

/-- A file in the root may be looked at if the last letter of its name tells it from the
configuration file and from the hook log. -/
theorem IsShown.name (h : cache.IsShown view) {name : String} (hname : IsPlain name)
    (hhidden : name.toList.getLast? ≠ some 'l') (hlog : name.toList.getLast? ≠ some 'g') :
    view.IsReadable (Path.join cache.root name) := by
  constructor
  · refine h.root.join hname fun hsame => hhidden ?_
    rw [h.hidden, Option.some_inj] at hsame
    rw [← hsame]
    rfl
  · intro hsame
    refine hlog ?_
    have hlast := h.log
    rw [← hsame, View.placeOf_join hname, List.getLast?_concat, Option.some_inj] at hlast
    rw [hlast]
    rfl

theorem IsShown.artifact (h : cache.IsShown view) (category : Namespace) (path : String) :
    view.IsReadable (cache.artifactPath category path) :=
  h.name (isPlain_artifactName category path) (by rw [artifactName_getLast?]; decide)
    (by rw [artifactName_getLast?]; decide)

theorem IsShown.temporary (h : cache.IsShown view) (category : Namespace) (path : String) :
    view.IsReadable (cache.temporaryPath category path) :=
  h.name (isPlain_temporaryName category path) (by rw [temporaryName_getLast?]; decide)
    (by rw [temporaryName_getLast?]; decide)

theorem store_staysWithin (h : cache.IsShown view) (category : Namespace) (path payload : String) :
    (cache.store category path payload).StaysWithin view := by
  have htarget := h.artifact category path
  have htemporary := h.temporary category path
  refine .bind (.request h.root) fun made => ?_
  cases made with
  | error cause => trivial
  | ok _ =>
    refine .bind (.request htemporary.clear) fun written => ?_
    cases written with
    | error cause => trivial
    | ok _ =>
      refine .bind (.request ⟨htemporary, htarget.clear⟩) fun moved => ?_
      cases moved with
      | error cause => exact .bind (.request htemporary.clear) fun _ => trivial
      | ok _ => trivial

theorem read_staysWithin (h : cache.IsShown view) (category : Namespace) (path : String) :
    (cache.read category path).StaysWithin view := by
  have htext : (FileTask.readText (cache.artifactPath category path)).StaysWithin view := by
    refine ⟨h.artifact category path, fun answer => ?_⟩
    cases answer with
    | error reason => trivial
    | ok content =>
      dsimp only
      cases String.fromUTF8? content <;> trivial
  refine .bind htext fun text => ?_
  cases text with
  | error cause => cases cause <;> trivial
  | ok text => trivial

theorem summary?_staysWithin (h : cache.IsShown view) (path : String) :
    (cache.summary? path).StaysWithin view := by
  have hcontext : (cache.loadContext path).StaysWithin view := by
    refine .bind (read_staysWithin h .context path) fun stored => ?_
    cases stored with
    | error reason => trivial
    | ok text? =>
      cases text? with
      | none => trivial
      | some text =>
        dsimp only
        cases Context.ofText? text <;> trivial
  have hcount : (cache.loadImpactCount path).StaysWithin view := by
    refine .bind (read_staysWithin h .impact path) fun stored => ?_
    cases stored with
    | error reason => trivial
    | ok text? => cases text? <;> trivial
  exact .bind hcontext fun _ => .bind hcount fun _ => trivial

end Cache

/-! ## Commands -/

/-- The file that a command reads as a source, if it does. -/
def Command.source? : Command → Option String
  | .create file none => some file
  | .edit file none => some file
  | .extract file none => some file
  | .createTodosIssues file => some file
  | _ => none

/-- Whether a command works with the cache. -/
def Command.usesCache : Command → Bool
  | .storeFileContext .. => true
  | .storeImpactAnalysis .. => true
  | .storePatternViolations .. => true
  | .storeOptimizationMetrics .. => true
  | .getContext .. => true
  | _ => false

namespace Settings

/-- Whether a view shows everything that a command works with: the directory of the hook log, the
log itself but for what it holds, the cache if the command works with it, and the source if the
command reads one. -/
structure IsShown (settings : Settings) (view : View) (command : Command) : Prop where
  logs : view.IsClear settings.logsDirectory
  log : view.log = view.placeOf settings.logFile
  cache : command.usesCache = true → view.IsClear settings.cache.root
  source : ∀ file ∈ command.source?, view.IsReadable file

variable {settings : Settings} {command : Command}

theorem isPlain_logName : IsPlain "hooks.log" :=
  ⟨by decide, by decide, by decide, by decide⟩

theorem openLog_staysWithin (hlogs : view.IsClear settings.logsDirectory)
    (hlog : view.IsClear settings.logFile) : settings.openLog.StaysWithin view := by
  refine .bind (.request hlogs) fun made => ?_
  cases made with
  | error reason => trivial
  | ok _ =>
    refine .bind (.request hlog) fun opened => ?_
    cases opened <;> trivial

theorem writeLog_staysWithin (hlog : view.IsClear settings.logFile) (now : Int)
    (sent : List SentCall) : (settings.writeLog now sent).StaysWithin view := by
  cases sent with
  | nil => trivial
  | cons first rest => exact .bind (.request hlog) fun _ => trivial

variable (h : settings.IsShown view command)
  (hhidden : view.hidden.getLast? = some "codecache.toml")
include h hhidden

theorem IsShown.logFile_isClear : view.IsClear settings.logFile :=
  h.logs.join isPlain_logName (by rw [hhidden]; decide)

theorem IsShown.cache_isShown (huses : command.usesCache = true) :
    settings.cache.IsShown view := by
  refine ⟨h.cache huses, hhidden, ?_⟩
  rw [h.log, logFile, View.placeOf_join isPlain_logName, List.getLast?_concat]

/-- **A command works with nothing that a view does not show**, if the view shows its files. -/
theorem perform_staysWithin (surroundings : Surroundings) (hcommand : command ≠ .configInit) :
    (settings.perform surroundings command).StaysWithin view := by
  have hsource := h.source
  have hcache := h.cache_isShown hhidden
  cases command with
  | create file content =>
    refine .bind (givenOrRead_staysWithin fun hnone => ?_) fun _ => trivial
    subst hnone
    exact hsource file rfl
  | edit file content =>
    refine .bind (givenOrRead_staysWithin fun hnone => ?_) fun _ => trivial
    subst hnone
    exact hsource file rfl
  | extract file content =>
    refine .bind (.bind (givenOrRead_staysWithin fun hnone => ?_) fun _ => trivial)
      fun _ => trivial
    subst hnone
    exact hsource file rfl
  | storeFileContext file imports exports =>
    exact .bind (.bind (Cache.store_staysWithin (hcache rfl) ..) fun _ => trivial) fun _ => trivial
  | storeImpactAnalysis file data =>
    exact .bind (.bind (Cache.store_staysWithin (hcache rfl) ..) fun _ => trivial) fun _ => trivial
  | storePatternViolations file data =>
    exact .bind (.bind (Cache.store_staysWithin (hcache rfl) ..) fun _ => trivial) fun _ => trivial
  | storeOptimizationMetrics file data =>
    exact .bind (.bind (Cache.store_staysWithin (hcache rfl) ..) fun _ => trivial) fun _ => trivial
  | getContext file => exact .bind (Cache.summary?_staysWithin (hcache rfl) file) fun _ => trivial
  | logActivity file details => trivial
  | createTodosIssues file =>
    exact .bind (readSource_staysWithin (hsource file rfl)) fun _ => trivial
  | notifyCriticalChange file changeType => trivial
  | createFeaturePr branch base =>
    rw [perform]
    cases branchSummary? surroundings branch base <;> trivial
  | configInit => exact absurd rfl hcommand
  | configShow => trivial

end Settings

end FileLore
