/-!
# Arguments

What a command line asks for. Commands take their arguments by position; options
may stand anywhere, before a command as well as after it, and count most where
they stand latest in the nesting of commands. After `--` every argument counts by
its position.

Arguments are read from left to right. The first that asks for help or for the
version, or that is wrong, decides what becomes of the whole line.
-/

namespace FileLore

/-- A command with its arguments. -/
inductive Command where
  | create (file : String) (content : Option String)
  | edit (file : String) (content : Option String)
  | extract (file : String) (content : Option String)
  | storeFileContext (file imports exports : String)
  | storeImpactAnalysis (file data : String)
  | storePatternViolations (file data : String)
  | storeOptimizationMetrics (file data : String)
  | getContext (file : String)
  | logActivity (file : String) (details : Option String)
  | createTodosIssues (file : String)
  | notifyCriticalChange (file changeType : String)
  | createFeaturePr (branch base : String)
  | configInit
  | configShow
  deriving DecidableEq, Repr

/-- Settings that a command line or the environment gives. -/
structure Overrides where
  cacheRoot : Option String
  project : Option String
  logsDirectory : Option String
  deriving DecidableEq, Repr

namespace Overrides

/-- No settings. -/
def none : Overrides := ⟨.none, .none, .none⟩

/-- The settings of `self` and, where it has none, those of `other`. -/
def orElse (self other : Overrides) : Overrides :=
  ⟨self.cacheRoot <|> other.cacheRoot, self.project <|> other.project,
    self.logsDirectory <|> other.logsDirectory⟩

end Overrides

/-- What a command line comes to if no command is run. -/
inductive Refusal where
  /-- Help is shown. -/
  | help
  /-- The version is shown. -/
  | version
  /-- The command line is wrong. -/
  | usage
  deriving DecidableEq, Repr

namespace Arguments

/-- A command that takes its arguments by position: how many there may be, and the command that
they make if there are enough. -/
structure Leaf where
  most : Nat
  build : List String → Option Command

/-- The command that starts pull requests works against this branch unless told otherwise. -/
def standardBase : String := "main"

/-- The commands by their names, those for the configuration apart. -/
def leaves : List (String × Leaf) :=
  [("create", ⟨2, fun
      | [file] => some (.create file none)
      | [file, content] => some (.create file (some content))
      | _ => none⟩),
    ("edit", ⟨2, fun
      | [file] => some (.edit file none)
      | [file, content] => some (.edit file (some content))
      | _ => none⟩),
    ("extract", ⟨2, fun
      | [file] => some (.extract file none)
      | [file, content] => some (.extract file (some content))
      | _ => none⟩),
    ("store_file_context", ⟨3, fun
      | [file, imports, exports] => some (.storeFileContext file imports exports)
      | _ => none⟩),
    ("store_impact_analysis", ⟨2, fun
      | [file, data] => some (.storeImpactAnalysis file data)
      | _ => none⟩),
    ("store_pattern_violations", ⟨2, fun
      | [file, data] => some (.storePatternViolations file data)
      | _ => none⟩),
    ("store_optimization_metrics", ⟨2, fun
      | [file, data] => some (.storeOptimizationMetrics file data)
      | _ => none⟩),
    ("get_context", ⟨1, fun
      | [file] => some (.getContext file)
      | _ => none⟩),
    ("log_activity", ⟨2, fun
      | [file] => some (.logActivity file none)
      | [file, details] => some (.logActivity file (some details))
      | _ => none⟩),
    ("create_todos_issues", ⟨1, fun
      | [file] => some (.createTodosIssues file)
      | _ => none⟩),
    ("notify_critical_change", ⟨2, fun
      | [file, changeType] => some (.notifyCriticalChange file changeType)
      | _ => none⟩),
    ("create_feature_pr", ⟨2, fun
      | [branch] => some (.createFeaturePr branch standardBase)
      | [branch, base] => some (.createFeaturePr branch base)
      | _ => none⟩)]

/-- The commands for the configuration. -/
def configLeaves : List (String × Leaf) :=
  [("init", ⟨0, fun _ => some .configInit⟩), ("show", ⟨0, fun _ => some .configShow⟩)]

/-- How far the command itself is known. -/
inductive Stage where
  /-- No command has been named. -/
  | top
  /-- A command for the configuration is to be named. -/
  | config
  /-- The arguments of a command follow. -/
  | leaf (leaf : Leaf)

/-- What has been read of a command line. -/
structure Progress where
  stage : Stage
  /-- The options given since the last command was named. -/
  inner : Overrides
  /-- Whether the form of log messages has been given since then. -/
  formatGiven : Bool
  /-- The options given before. -/
  outer : Overrides
  /-- The arguments given so far, the last one first. -/
  given : List String
  /-- Whether what follows counts by its position whatever it is. -/
  onlyArguments : Bool

/-- Nothing has been read. -/
def Progress.start : Progress := ⟨.top, .none, false, .none, [], false⟩

/-- A command has been named. -/
def Progress.enter (progress : Progress) (stage : Stage) : Progress :=
  { progress with
    stage := stage
    inner := .none
    formatGiven := false
    outer := progress.inner.orElse progress.outer }

/-- Sets an option that takes a value. An option may be given once in a place, and the form of log
messages has to be one that there is. -/
def Progress.set? (progress : Progress) (name value : String) : Option Progress :=
  let inner := progress.inner
  match name with
  | "cache-root" =>
    if inner.cacheRoot.isSome then none
    else some { progress with inner := { inner with cacheRoot := some value } }
  | "project" =>
    if inner.project.isSome then none
    else some { progress with inner := { inner with project := some value } }
  | "logs-dir" =>
    if inner.logsDirectory.isSome then none
    else some { progress with inner := { inner with logsDirectory := some value } }
  | "log-format" =>
    if progress.formatGiven || (value != "text" && value != "json") then none
    else some { progress with formatGiven := true }
  | _ => none

/-- Whether an option takes a value. -/
def takesValue (name : String) : Bool :=
  name == "cache-root" || name == "project" || name == "logs-dir" || name == "log-format"

/-- Whether an argument can be the value of an option that stands before it. -/
def canBeValue (argument : String) : Bool :=
  argument.toList.head? != some '-' || argument == "-"

/-- The first of the letters after a single hyphen that does not only ask for more messages: for
help, for the version, or for nothing that there is. -/
def letters (atTop : Bool) : List Char → Option Refusal
  | [] => none
  | 'v' :: rest => letters atTop rest
  | 'h' :: _ => some .help
  | 'V' :: _ => some (if atTop then .version else .usage)
  | _ => some .usage

/-- What asking for help on a command comes to: help if there is such a command. -/
def helpOn (commands : List String) : List String → Refusal
  | [] => .help
  | [name] => if commands.contains name || name == "help" then .help else .usage
  | _ => .usage

/-- What asking for help on a command, from the top, comes to. -/
def helpFromTop : List String → Refusal
  | "config" :: names => helpOn (configLeaves.map (·.1)) names
  | names => helpOn (leaves.map (·.1)) names

/-- The command line is at its end. -/
def finish (progress : Progress) : Except Refusal (Command × Overrides) :=
  match progress.stage with
  | .leaf leaf =>
    match leaf.build progress.given.reverse with
    | some command => .ok (command, progress.inner.orElse progress.outer)
    | none => .error .usage
  | _ => .error .usage

/-- Reads an argument that counts by its position, with those that follow it. -/
def Progress.position (progress : Progress) (argument : String) (rest : List String) :
    Except Refusal Progress :=
  match progress.stage with
  | .top =>
    if progress.onlyArguments then .error .usage
    else if argument == "help" then .error (helpFromTop rest)
    else if argument == "config" then .ok (progress.enter .config)
    else
      match leaves.lookup argument with
      | some leaf => .ok (progress.enter (.leaf leaf))
      | none => .error .usage
  | .config =>
    if progress.onlyArguments then .error .usage
    else if argument == "help" then .error (helpOn (configLeaves.map (·.1)) rest)
    else
      match configLeaves.lookup argument with
      | some leaf => .ok (progress.enter (.leaf leaf))
      | none => .error .usage
  | .leaf leaf =>
    if progress.given.length < leaf.most then
      .ok { progress with given := argument :: progress.given }
    else .error .usage

/-- Whether no command has been named. -/
def Progress.atTop (progress : Progress) : Bool :=
  match progress.stage with
  | .top => true
  | _ => false

/-- Reads the arguments that are left. -/
def read (progress : Progress) : List String → Except Refusal (Command × Overrides)
  | [] => finish progress
  | argument :: rest =>
    if progress.onlyArguments then
      match progress.position argument rest with
      | .error refusal => .error refusal
      | .ok next => read next rest
    else
      match argument.toList with
      | ['-', '-'] => read { progress with onlyArguments := true } rest
      | '-' :: '-' :: spelled =>
        let name := String.ofList (spelled.takeWhile (· != '='))
        match spelled.dropWhile (· != '=') with
        | _ :: value =>
          match progress.set? name (String.ofList value) with
          | some next => read next rest
          | none => .error .usage
        | [] =>
          if takesValue name then
            -- Without an equals sign the value is the next argument, which may be no option.
            match rest with
            | value :: rest =>
              if canBeValue value then
                match progress.set? name value with
                | some next => read next rest
                | none => .error .usage
              else .error .usage
            | [] => .error .usage
          else if name == "verbose" then read progress rest
          else if name == "help" then .error .help
          else if name == "version" && progress.atTop then .error .version
          else .error .usage
      | '-' :: c :: more =>
        match letters progress.atTop (c :: more) with
        | some refusal => .error refusal
        | none => read progress rest
      | _ =>
        match progress.position argument rest with
        | .error refusal => .error refusal
        | .ok next => read next rest

/-- What a command line asks for: a command and the settings given with it. -/
def ofLine (arguments : List String) : Except Refusal (Command × Overrides) :=
  read Progress.start arguments

end Arguments

end FileLore
