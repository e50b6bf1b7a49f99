import FileLore.Proofs.CommandLine.Footprint
import FileLore.Proofs.Config.Text
import FileLore.Proofs.Disk.Failure

/-!
# Runs with a useless configuration file

No problem with the configuration stops a command: as long as the filter for messages
can be read, every command but that for a new configuration file succeeds, whatever
fails on the disk. A configuration file that cannot be used does as much harm as one
that is not there, namely none: the run works with the standard settings and those of
the command line and of the environment, prints the same, sends the same calls and
leaves the same files (`runProgram_withstandsConfig`).

The command's own paths must not lead to the configuration file or through it: a cache
in the place of that file, say, can only be made where there is no file
(`not_withstandsConfig_of_sharedPlace`).
-/

namespace FileLore

open Disk (View IsPlain)

/-! ## Exit codes -/

namespace Settings

variable {command : Command}

/-- The settings of a run can be written, wherever they come from. -/
theorem resolve_yields (surroundings : Surroundings) (options : Overrides) :
    (resolve surroundings options).Yields (·.config.probeTimeout ≤ Toml.greatestInteger) := by
  have hloaded : (loaded surroundings.home?).Yields (·.probeTimeout ≤ Toml.greatestInteger) := by
    have hstandard : Config.standard.probeTimeout ≤ Toml.greatestInteger := by decide
    unfold loaded
    cases surroundings.home? with
    | none => exact hstandard
    | some home =>
      refine (Config.load_yields _).bind fun result hresult => ?_
      cases result with
      | ok config => exact hresult config rfl
      | error cause => exact hstandard
  exact hloaded.bind fun _ hconfig => hconfig

/-- Every command but that for a new configuration file has an answer to print, if the settings can
be written. -/
theorem perform_answers (settings : Settings) (surroundings : Surroundings)
    (hsettings : settings.config.probeTimeout ≤ Toml.greatestInteger) (h : command ≠ .configInit) :
    (settings.perform surroundings command).Yields (·.output.isSome) := by
  cases command with
  | create file content => exact .of_bind fun _ => rfl
  | edit file content => exact .of_bind fun _ => rfl
  | extract file content => exact .of_bind fun _ => rfl
  | storeFileContext file imports exports => exact .of_bind fun _ => rfl
  | storeImpactAnalysis file data => exact .of_bind fun _ => rfl
  | storePatternViolations file data => exact .of_bind fun _ => rfl
  | storeOptimizationMetrics file data => exact .of_bind fun _ => rfl
  | getContext file => exact .of_bind fun _ => rfl
  | logActivity file details => rfl
  | createTodosIssues file => exact .of_bind fun _ => rfl
  | notifyCriticalChange file changeType => rfl
  | createFeaturePr branch base =>
    rw [perform]
    cases branchSummary? surroundings branch base <;> rfl
  | configInit => exact absurd rfl h
  | configShow =>
    rw [perform, Config.text?_eq hsettings]
    rfl

theorem performLogged_succeeds (settings : Settings) (surroundings : Surroundings)
    (filter : Log.Filter) (hsettings : settings.config.probeTimeout ≤ Toml.greatestInteger)
    (h : command ≠ .configInit) :
    (settings.performLogged surroundings filter command).Yields (·.exitCode = 0) :=
  .of_bind fun _ => (perform_answers settings surroundings hsettings h).bind fun _ hanswer =>
    .of_bind fun _ => if_pos hanswer

end Settings

/-! ## Settings without a configuration file -/

namespace Config

/-- What loading a configuration file yields, by what the file holds. -/
theorem load_run (path : String) (disk : Disk) :
    (load path).run disk =
      (match disk.contentOf path with
        | .error cause => .error (.io path cause)
        | .ok content =>
          match String.fromUTF8? content with
          | none => .error (.io path .invalidText)
          | some text =>
            match ofText? text with
            | some config => .ok config
            | none => .error (.config ("failed to parse " ++ path)), disk) := by
  rw [load, FileTask.run_bind, FileTask.readText, FileTask.run_perform, Disk.perform]
  cases disk.contentOf path with
  | error cause => rfl
  | ok content =>
    dsimp only
    cases String.fromUTF8? content with
    | none => rfl
    | some text =>
      dsimp only [FileTask.run]
      cases ofText? text <;> rfl

/-- Whether something stands in the place of the configuration file that is no configuration: text
that is none or sets something to a value of the wrong kind, bytes that are no text, or a
directory. -/
structure IsRefused (home : String) (place : Location) (disk : Disk) : Prop where
  stands : ∃ entry, disk.find? (fileIn home) = .ok (place, entry)
  useless : ∃ reason, ((load (fileIn home)).run disk).1 = .error reason

theorem isPlain_fileName : IsPlain "codecache.toml" :=
  ⟨by decide, by decide, by decide, by decide⟩

theorem isRefused_of_isOk {home : String} {place : Location} {disk : Disk}
    (hfound : (disk.find? (fileIn home)).map (·.1) = .ok place)
    (hload : ((load (fileIn home)).run disk).1.isOk = false) : IsRefused home place disk := by
  constructor
  · cases hfind : disk.find? (fileIn home) with
    | error reason => rw [hfind] at hfound; cases hfound
    | ok found =>
      rw [hfind] at hfound
      cases hfound
      exact ⟨found.2, rfl⟩
  · cases hresult : ((load (fileIn home)).run disk).1 with
    | error reason => exact ⟨reason, rfl⟩
    | ok config => rw [hresult] at hload; cases hload

end Config

namespace Settings

/-- The settings of a run that finds no configuration: for the directory of the cache, that of the
log and the name of the project what the command line says, failing that what the environment says,
and failing that what is usual, the name of the working directory being that of the project. For the
rest it is what is usual. -/
def standard (surroundings : Surroundings) (options : Overrides) : Settings where
  config :=
    { cacheRoot :=
        (options.cacheRoot <|> surroundings.environment.lookup "CODECACHE_ROOT").getD
          ".claude/knowledge"
      logsDirectory :=
        (options.logsDirectory <|> surroundings.environment.lookup "CLAUDE_LOGS_DIR").getD
          ".claude/hooks/logs"
      projectName :=
        options.project <|> surroundings.environment.lookup "PROJECT_NAME" <|>
          (Path.fileName? (surroundings.workingDirectory.getD ".")).map String.ofList
      probeAddress := "localhost:7687"
      probeTimeout := 5000
      tokenVariable := "GITHUB_TOKEN"
      owner := none
      repository := none }
  base := surroundings.workingDirectory.getD "."

/-- The standard configuration comes to the same settings as no configuration. -/
theorem named_applied_standard (surroundings : Surroundings) (options : Overrides) :
    named surroundings.here
        (applied (options.orElse (environmentOverrides surroundings)) Config.standard) =
      (standard surroundings options).config := by
  have hproject (asked directory : Option String) :
      (((asked <|> surroundings.environment.lookup "PROJECT_NAME") <|> none) <|> directory) =
        (asked <|> surroundings.environment.lookup "PROJECT_NAME" <|> directory) := by
    cases asked with
    | some name => rfl
    | none => cases surroundings.environment.lookup "PROJECT_NAME" <;> rfl
  exact congrArg (fun name => { (standard surroundings options).config with projectName := name })
    (hproject options.project _)

variable {surroundings : Surroundings} {home : String} {disk : Disk}

theorem resolve_run_of_error {reason : Error} (hhome : surroundings.home? = some home)
    (h : ((Config.load (Config.fileIn home)).run disk).1 = .error reason) (options : Overrides) :
    (resolve surroundings options).run disk = (standard surroundings options, disk) := by
  have hload : (Config.load (Config.fileIn home)).run disk = (.error reason, disk) :=
    Prod.ext h (by rw [Config.load_run])
  rw [resolve, FileTask.run_bind, hhome, loaded, FileTask.run_bind, hload]
  exact Prod.ext (congrArg (Settings.mk · _) (named_applied_standard surroundings options)) rfl

end Settings

/-! ## Runs -/

/-- Whether a command line is accepted and does not ask for a new configuration file. -/
structure Arguments.IsHook (arguments : List String) : Prop where
  accepted : ofLine arguments ≠ .error .usage
  notInit : ∀ options, ofLine arguments ≠ .ok (.configInit, options)

theorem Arguments.isHook_of_ofLine {arguments : List String} {command : Command}
    {options : Overrides} (hline : ofLine arguments = .ok (command, options))
    (hcommand : command ≠ .configInit) : IsHook arguments := by
  refine ⟨by rw [hline]; nofun, fun others hinit => hcommand ?_⟩
  rw [hline] at hinit
  exact congrArg Prod.fst (Except.ok.inj hinit)

/-- The course of a run up to the answer: the settings, whether the hook log could be opened, and
what comes of the command, with every call that it has sent. -/
def course (surroundings : Surroundings) (options : Overrides) (command : Command) :
    FileTask (Settings × Bool × Answer) := do
  let settings ← Settings.resolve surroundings options
  let hasLog ← settings.openLog
  return (settings, hasLog, ← settings.perform surroundings command)

variable {surroundings : Surroundings} {arguments : List String} {command : Command}
  {options : Overrides} {filter : Log.Filter} {home : String} {view : View} {refused absent : Disk}

/-- What a run prints and logs, and how it ends, follows from its course. -/
theorem runProgram_run (hline : Arguments.ofLine arguments = .ok (command, options))
    (hfilter : Log.Filter.ofSetting? (surroundings.valueOf? "RUST_LOG") = some filter)
    (disk : Disk) :
    (runProgram surroundings arguments).run disk =
      let ((settings, hasLog, answer), next) := (course surroundings options command).run disk
      let logged := if hasLog then answer.logged filter else []
      ({ exitCode := if answer.output.isSome then 0 else 1
         output := (answer.output.map (· ++ "\n")).getD ""
         logged := logged
         logFile := some settings.logFile },
        ((settings.writeLog surroundings.now logged).run next).2) := by
  rw [runProgram, hline]
  dsimp only
  rw [FileTask.run_bind, hfilter, course, FileTask.run_bind]
  dsimp only
  rw [Settings.performLogged]
  simp only [FileTask.run_bind, FileTask.run_pure]

/-- Commands succeed, whatever becomes of their operations on files. -/
theorem runProgram_succeeds (hhook : Arguments.IsHook arguments)
    (hfilter : Log.Filter.ofSetting? (surroundings.valueOf? "RUST_LOG") ≠ none) :
    (runProgram surroundings arguments).Yields (·.exitCode = 0) := by
  obtain ⟨filter, hfilter⟩ := Option.ne_none_iff_exists'.mp hfilter
  rw [runProgram]
  cases hline : Arguments.ofLine arguments with
  | error refusal =>
    cases refusal with
    | help => rfl
    | version => rfl
    | usage => exact absurd hline hhook.accepted
  | ok asked =>
    obtain ⟨command, options⟩ := asked
    have hcommand : command ≠ .configInit := by
      rintro rfl
      exact hhook.notInit options hline
    refine (Settings.resolve_yields surroundings options).bind fun settings hsettings => ?_
    rw [hfilter]
    exact settings.performLogged_succeeds surroundings filter hsettings hcommand

/-- A configuration file that is refused leads to the same settings as none. -/
theorem resolve_run_absent (hhome : surroundings.home? = some home)
    (hrefused : Config.IsRefused home view.hidden refused) (hsame : view.Alike refused absent)
    (hnone : absent.at? view.hidden = none) (options : Overrides) :
    (Settings.resolve surroundings options).run refused =
        (Settings.standard surroundings options, refused) ∧
      (Settings.resolve surroundings options).run absent =
        (Settings.standard surroundings options, absent) := by
  obtain ⟨entry, hstands⟩ := hrefused.stands
  obtain ⟨reason, huseless⟩ := hrefused.useless
  have hplace := (View.find?_join_place hsame.working Config.isPlain_fileName hstands).1
  refine ⟨Settings.resolve_run_of_error hhome huseless options, ?_⟩
  cases hfound : absent.find? (Config.fileIn home) with
  | error cause =>
    have hload : ((Config.load (Config.fileIn home)).run absent).1 =
        .error (.io (Config.fileIn home) cause) := by
      rw [Config.load_run, Disk.contentOf, hfound]
    exact Settings.resolve_run_of_error hhome hload options
  | ok found =>
    -- The path leads to the hidden place if it leads anywhere, and nothing stands there.
    obtain ⟨place, entry'⟩ := found
    obtain ⟨hplace', hat⟩ :=
      View.find?_join_place hsame.working' Config.isPlain_fileName hfound
    have hhidden : place = view.hidden := hplace'.symm.trans hplace
    rw [hhidden, hnone] at hat
    cases hat

/-- With the same settings a run takes the same course on disks that look alike. -/
theorem course_alike (hsame : view.Alike refused absent)
    (hrefused : (Settings.resolve surroundings options).run refused =
      (Settings.standard surroundings options, refused))
    (habsent : (Settings.resolve surroundings options).run absent =
      (Settings.standard surroundings options, absent))
    (hshown : (Settings.standard surroundings options).IsShown view command)
    (hhidden : view.hidden.getLast? = some "codecache.toml") (hcommand : command ≠ .configInit) :
    ∃ hasLog answer next next', view.Alike next next' ∧
      (course surroundings options command).run refused =
        ((Settings.standard surroundings options, hasLog, answer), next) ∧
      (course surroundings options command).run absent =
        ((Settings.standard surroundings options, hasLog, answer), next') := by
  obtain ⟨hopened, hmid⟩ := (Settings.openLog_staysWithin hshown.logs
    (hshown.logFile_isClear hhidden)).run_alike hsame
  obtain ⟨hanswer, hafter⟩ :=
    (Settings.perform_staysWithin hshown hhidden surroundings hcommand).run_alike hmid
  simp only [course, FileTask.run_bind, FileTask.run_pure, hrefused, habsent]
  exact ⟨_, _, _, _, hafter, rfl, by rw [hopened, hanswer]⟩

/-- **No problem with the configuration stops a command**, if the filter for messages can be read.
Whatever becomes of its operations on files, a command succeeds. With something that is refused in
the place of the configuration file a run works with the standard settings, prints and logs the
same, sends the same calls and leaves what looks the same as with nothing in that place, the files
of the command lying elsewhere. -/
theorem runProgram_withstandsConfig (surroundings : Surroundings) (arguments : List String)
    (hhook : Arguments.IsHook arguments)
    (hfilter : Log.Filter.ofSetting? (surroundings.valueOf? "RUST_LOG") ≠ none) :
    (∀ disk log outcome last, (runProgram surroundings arguments).Ends disk log outcome last →
      outcome.exitCode = 0) ∧
    ∀ (home : String) (view : View) (refused absent : Disk), surroundings.home? = some home →
      Config.IsRefused home view.hidden refused → view.Alike refused absent →
      absent.at? view.hidden = none →
      (∀ command options, Arguments.ofLine arguments = .ok (command, options) →
        (Settings.standard surroundings options).IsShown view command) →
      ((runProgram surroundings arguments).run absent).1 =
          ((runProgram surroundings arguments).run refused).1 ∧
        view.Alike ((runProgram surroundings arguments).run refused).2
          ((runProgram surroundings arguments).run absent).2 ∧
        ∀ command options, Arguments.ofLine arguments = .ok (command, options) →
          ∃ hasLog answer,
            ((course surroundings options command).run refused).1 =
              (Settings.standard surroundings options, hasLog, answer) ∧
            ((course surroundings options command).run absent).1 =
              (Settings.standard surroundings options, hasLog, answer) := by
  refine ⟨fun disk log outcome last => (runProgram_succeeds hhook hfilter).ends, ?_⟩
  intro home view refused absent hhome hrefused hsame hnone hshown
  cases hline : Arguments.ofLine arguments with
  | error refusal =>
    rw [runProgram, hline]
    exact ⟨rfl, hsame, nofun⟩
  | ok asked =>
    obtain ⟨command, options⟩ := asked
    have hcommand : command ≠ .configInit := by
      rintro rfl
      exact hhook.notInit options hline
    have hhidden : view.hidden.getLast? = some "codecache.toml" := by
      obtain ⟨entry, hstands⟩ := hrefused.stands
      obtain ⟨-, here, -, hplace, -⟩ := Disk.find?_join_ok Config.isPlain_fileName hstands
      rw [hplace, List.getLast?_concat]
    have hcommandShown := hshown command options hline
    obtain ⟨hresolved, hresolved'⟩ := resolve_run_absent hhome hrefused hsame hnone options
    obtain ⟨hasLog, answer, next, next', hnext, hcourse, hcourse'⟩ :=
      course_alike hsame hresolved hresolved' hcommandShown hhidden hcommand
    obtain ⟨filter, hfilter⟩ := Option.ne_none_iff_exists'.mp hfilter
    rw [runProgram_run hline hfilter, runProgram_run hline hfilter, hcourse, hcourse']
    refine ⟨rfl, ?_, ?_⟩
    · exact ((Settings.writeLog_staysWithin (hcommandShown.logFile_isClear hhidden) _
        _).run_alike hnext).2
    · rintro _ _ ⟨⟩
      exact ⟨hasLog, answer, by rw [hcourse], by rw [hcourse']⟩

/-! ## A configuration file that is no text -/

/-- Where the configuration file of a user stands whose home is `/h`. -/
def garbledFile : Location := ["h", ".codecache", "codecache.toml"]

/-- A home with a configuration file that is no text, and an empty working directory. -/
def garbledHome : Disk :=
  ⟨[(["w"], .directory), (["h"], .directory), (["h", ".codecache"], .directory),
    (garbledFile, .file ⟨#[0xff]⟩)], ["w"]⟩

/-- What is around a program that runs there, with `more` in the environment. -/
def homeSurroundings (more : List (String × String)) : Surroundings where
  environment := ("HOME", "/h") :: more
  accountHome := none
  workingDirectory := some "/w"
  now := 0
  versionControl _ := none
  network _ _ := false

theorem isRefused_garbledHome : Config.IsRefused "/h" garbledFile garbledHome :=
  Config.isRefused_of_isOk (by decide +kernel) (by decide +kernel)

/-- Storing an analysis comes to the same with bytes that are no text for a configuration and with
no configuration. -/
theorem runProgram_withstandsConfig_garbledHome :
    let arguments := ["store_impact_analysis", "a.py", "2"]
    let program := runProgram (homeSurroundings []) arguments
    let absent := garbledHome.eraseTree garbledFile
    Arguments.IsHook arguments ∧
      Config.IsRefused "/h" garbledFile garbledHome ∧
      (∀ disk log outcome last, program.Ends disk log outcome last → outcome.exitCode = 0) ∧
      (program.run absent).1 = (program.run garbledHome).1 ∧
      (program.run absent).1.output = "success\n" := by
  intro arguments program absent
  have hline : Arguments.ofLine arguments =
      .ok (.storeImpactAnalysis "a.py" "2", Overrides.none) := by
    decide +kernel
  have hhook : Arguments.IsHook arguments := Arguments.isHook_of_ofLine hline nofun
  let view : View := ⟨["w"], garbledFile, ["w", ".claude", "hooks", "logs", "hooks.log"]⟩
  obtain ⟨hexit, hsame⟩ :=
    runProgram_withstandsConfig (homeSurroundings []) arguments hhook (by decide +kernel)
  obtain ⟨houtcome, -, -⟩ := hsame "/h" view garbledHome absent (by decide +kernel)
    isRefused_garbledHome (View.alike_eraseTree rfl) rfl fun command options hasked => by
      rw [hline] at hasked
      cases hasked
      exact ⟨by decide +kernel, by decide +kernel, fun _ => by decide +kernel, nofun⟩
  exact ⟨hhook, isRefused_garbledHome, hexit, houtcome, by decide +kernel⟩

/-- With a cache in the place of the configuration file it makes a difference whether there is one.
Besides, a run breaks off over a filter for messages in which a part would end inside a character. -/
theorem not_withstandsConfig_of_sharedPlace :
    let sharing :=
      ["--cache-root", "/h/.codecache/codecache.toml", "store_impact_analysis", "a.py", "2"]
    let program := runProgram (homeSurroundings []) sharing
    (Arguments.IsHook sharing ∧
      Config.IsRefused "/h" garbledFile garbledHome ∧
      (program.run garbledHome).1.output = "failed\n" ∧
      (program.run (garbledHome.eraseTree garbledFile)).1.output = "success\n") ∧
    Arguments.IsHook ["get_context", "a.py"] ∧
      ((runProgram (homeSurroundings [("RUST_LOG", "  é=info")])
        ["get_context", "a.py"]).run garbledHome).1.exitCode = 101 := by
  intro sharing program
  have hline : Arguments.ofLine sharing =
      .ok (.storeImpactAnalysis "a.py" "2",
        ⟨some "/h/.codecache/codecache.toml", none, none⟩) := by
    decide +kernel
  have hline' : Arguments.ofLine ["get_context", "a.py"] =
      .ok (.getContext "a.py", Overrides.none) := by
    decide +kernel
  exact ⟨⟨Arguments.isHook_of_ofLine hline nofun, isRefused_garbledHome, by decide +kernel,
    by decide +kernel⟩, Arguments.isHook_of_ofLine hline' nofun, by decide +kernel⟩

end FileLore
