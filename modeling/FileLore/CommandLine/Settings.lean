import FileLore.CommandLine.Arguments
import FileLore.CommandLine.Surroundings
import FileLore.Config.File
import FileLore.Store.Cache

/-!
# Settings of a run

The settings that hold for a run: those of the configuration file, over which
those of the environment win, and over these the options of the command line. A
file that is missing or cannot be used leaves the standard settings, so that no
command is stopped by it. A project without a name is called after the working
directory.
-/

namespace FileLore

/-- The settings of a run. -/
structure Settings where
  config : Config
  /-- The directory from which relative paths in the settings start. -/
  base : String

namespace Settings

/-- The settings that the environment gives. -/
def environmentOverrides (surroundings : Surroundings) : Overrides :=
  ⟨surroundings.valueOf? "CODECACHE_ROOT", surroundings.valueOf? "PROJECT_NAME",
    surroundings.valueOf? "CLAUDE_LOGS_DIR"⟩

/-- The configuration with `overrides` in place of its own settings. -/
def applied (overrides : Overrides) (config : Config) : Config :=
  { config with
    cacheRoot := overrides.cacheRoot.getD config.cacheRoot
    logsDirectory := overrides.logsDirectory.getD config.logsDirectory
    projectName := overrides.project <|> config.projectName }

/-- The configuration with the project called after a directory if it has no name. -/
def named (directory : String) (config : Config) : Config :=
  { config with
    projectName := config.projectName <|> (Path.fileName? directory).map String.ofList }

/-- The configuration to start from: that of the user's file, or the standard one. -/
def loaded (home : Option String) : FileTask Config :=
  match home with
  | none => return Config.standard
  | some home => do
    match ← Config.load (Config.fileIn home) with
    | .ok config => return config
    | .error _ => return Config.standard

/-- The settings of a run with these options on the command line. -/
def resolve (surroundings : Surroundings) (options : Overrides) : FileTask Settings := do
  let config ← loaded surroundings.home?
  let overrides := options.orElse (environmentOverrides surroundings)
  return ⟨named surroundings.here (applied overrides config), surroundings.here⟩

/-- The cache that the settings name. -/
def cache (settings : Settings) : Cache :=
  ⟨Path.join settings.base settings.config.cacheRoot⟩

/-- The directory of the hook log. -/
def logsDirectory (settings : Settings) : String :=
  Path.join settings.base settings.config.logsDirectory

/-- The hook log. -/
def logFile (settings : Settings) : String :=
  Path.join settings.logsDirectory "hooks.log"

/-- The name of the project. -/
def project (settings : Settings) : String :=
  settings.config.projectName.getD "unknown"

end Settings

end FileLore
