import FileLore.Path
import FileLore.Text.LetterCase

/-!
# Roles

What a file is for within its project, as its name suggests. The rules are
ordered, and the first one that applies decides, so a test of a service is a
test.
-/

namespace FileLore

/-- The role of a file within its project. -/
inductive Role where
  | test | documentation | infrastructure | configuration | api | model | service | utility
  | component
  deriving DecidableEq, Repr, Inhabited

namespace Role

/-- The tag that stands for the role in observations and records. -/
def tag : Role → String
  | test => "test"
  | documentation => "documentation"
  | infrastructure => "infrastructure"
  | configuration => "configuration"
  | api => "api"
  | model => "model"
  | service => "service"
  | utility => "utility"
  | component => "component"

/-- All roles. -/
def all : List Role :=
  [test, documentation, infrastructure, configuration, api, model, service, utility, component]

/-- The role with the given tag. -/
def ofTag? (tag : String) : Option Role :=
  all.find? (·.tag == tag)

/-- How a file name, in small letters, can show a role. -/
inductive Sign where
  /-- The text occurs in the name. -/
  | within (text : String)
  /-- The name ends in the text. -/
  | ending (text : String)
  /-- The text is the whole name. -/
  | exactly (text : String)

/-- Whether a file name in small letters shows the sign. -/
def Sign.isIn (name : List Char) : Sign → Bool
  | within text => Text.occurs text.toList name
  | ending text => text.toList.isSuffixOf name
  | exactly text => text.toList == name

/-- The signs of each role; earlier rules count before later ones. -/
def rules : List (Sign × Role) :=
  [(.within "test", test), (.within "spec", test),
    (.ending ".md", documentation),
    (.exactly "dockerfile", infrastructure), (.exactly "docker-compose.yml", infrastructure),
    (.exactly "docker-compose.yaml", infrastructure),
    (.exactly "package.json", configuration), (.exactly "requirements.txt", configuration),
    (.exactly "go.mod", configuration), (.exactly "cargo.toml", configuration),
    (.within "api", api), (.within "route", api),
    (.within "model", model), (.within "schema", model),
    (.within "service", service),
    (.within "util", utility), (.within "helper", utility)]

/-- The role that a file name shows; a name without any sign belongs to a plain component. -/
def ofName (name : String) : Role :=
  let small := Text.lowerText name.toList
  ((rules.find? (·.1.isIn small)).map (·.2)).getD component

/-- The role of the file at `path`. -/
def ofPath (path : String) : Role :=
  ofName (Path.baseName path)

end Role

end FileLore
