import FileLore.Config.Basic
import FileLore.Disk.FileTask
import FileLore.Error
import FileLore.Toml.Reader
import FileLore.Toml.Writer

/-!
# The configuration file

Settings are kept in a TOML file in the user's home, in five sections. What the
file leaves out keeps its standard value; what it has besides is passed over. A
setting of the wrong kind makes the whole file useless.

A section is a table. It may also be given as an array, whose items are then the
settings in their order; a date in its place leaves every setting as it is.
-/

namespace FileLore.Config

open Toml (Entries)

/-- The settings of a section as values, in the order of `keys`, where there are any. -/
def sectionValues? (name : String) (keys : List String) (entries : Entries) :
    Option (List (Option Toml)) :=
  match entries.lookup name with
  | none => some (keys.map fun _ => none)
  | some (.table _ inner) => some (keys.map fun key => inner.lookup key)
  | some (.array items) => some (keys.zipIdx.map fun (_, index) => items[index]?)
  | some .date => some (keys.map fun _ => none)
  | some _ => none

/-- A text, or `standard` if it is not given. -/
def textOr (standard : String) : Option Toml → Option String
  | none => some standard
  | some (.string value) => some value
  | some _ => none

/-- A text that need not be given. -/
def textIfAny : Option Toml → Option (Option String)
  | none => some none
  | some (.string value) => some (some value)
  | some _ => none

/-- A whole number that is not negative, or `standard` if it is not given. -/
def countOr (standard : Nat) : Option Toml → Option Nat
  | none => some standard
  | some (.integer (.ofNat value)) => some value
  | some _ => none

/-- The settings that the entries of a document give. -/
def ofEntries? (entries : Entries) : Option Config := do
  let cache ← sectionValues? "cache" ["root"] entries
  let logging ← sectionValues? "logging" ["logs_dir"] entries
  let project ← sectionValues? "project" ["name"] entries
  let graph ← sectionValues? "graph" ["probe_addr", "probe_timeout_ms"] entries
  let github ← sectionValues? "github" ["token_env", "owner", "repo"] entries
  match cache, logging, project, graph, github with
  | [root], [logs], [name], [address, timeout], [token, owner, repository] =>
    return {
      cacheRoot := ← textOr standard.cacheRoot root
      logsDirectory := ← textOr standard.logsDirectory logs
      projectName := ← textIfAny name
      probeAddress := ← textOr standard.probeAddress address
      probeTimeout := ← countOr standard.probeTimeout timeout
      tokenVariable := ← textOr standard.tokenVariable token
      owner := ← textIfAny owner
      repository := ← textIfAny repository }
  | _, _, _, _, _ => none

/-- The settings that the text of a file gives. -/
def ofText? (text : String) : Option Config :=
  (Toml.ofText? text).bind ofEntries?

/-- A setting that is written only if there is a value. -/
def settingIfAny (key : String) : Option String → List (String × List Char)
  | none => []
  | some value => [(key, Toml.stringText value)]

/-- The settings in sections. -/
def sections (config : Config) : List Toml.Section :=
  [⟨"cache", [("root", Toml.stringText config.cacheRoot)]⟩,
    ⟨"logging", [("logs_dir", Toml.stringText config.logsDirectory)]⟩,
    ⟨"project", settingIfAny "name" config.projectName⟩,
    ⟨"graph",
      [("probe_addr", Toml.stringText config.probeAddress),
        ("probe_timeout_ms", Text.natText config.probeTimeout)]⟩,
    ⟨"github",
      ("token_env", Toml.stringText config.tokenVariable) ::
        settingIfAny "owner" config.owner ++ settingIfAny "repo" config.repository⟩]

/-- The settings as the text of a file. -/
def text (config : Config) : String :=
  Toml.documentText config.sections

/-- The settings as the text of a file, if they can be written: a time beyond the greatest whole
number cannot. -/
def text? (config : Config) : Option String :=
  if config.probeTimeout ≤ Toml.greatestInteger then some config.text else none

/-- The settings in the file at `path`. -/
def load (path : String) : FileTask (Except Error Config) := do
  match ← FileTask.readText path with
  | .error cause => return .error (.io path cause)
  | .ok content =>
    match ofText? content with
    | some config => return .ok config
    | none => return .error (.config ("failed to parse " ++ path))

/-- The directory of the configuration file in a user's home. -/
def directoryIn (home : String) : String :=
  Path.join home ".codecache"

/-- The configuration file in a user's home. -/
def fileIn (home : String) : String :=
  Path.join (directoryIn home) "codecache.toml"

/-- Writes a configuration file with the standard settings into a user's home, and yields its
path. -/
def writeStandard (home : String) : FileTask (Except Error String) := do
  let directory := directoryIn home
  let file := fileIn home
  match ← FileTask.request (.createDirectories directory) with
  | .error cause => return .error (.io directory cause)
  | .ok _ =>
    match ← FileTask.request (.writeFile file standard.text.toUTF8) with
    | .error cause => return .error (.io file cause)
    | .ok _ => return .ok file

end FileLore.Config
