import FileLore.Pattern.Search
import FileLore.Source.Language
import FileLore.Text.Blank
import FileLore.Text.Word

/-!
# Code elements

What a source file defines, imports and exports, as far as plain patterns show
it. Each language with an extractor has a list of rules; a rule's pattern is
searched for through the whole file, and each match is reported as an
observation. Observations stand in the order of the rules and, within a rule, in
the order of the file; repetitions are kept. This is no parser: what looks like
a definition inside a comment is reported too.
-/

namespace FileLore

/-- A pattern to search for and what to report of each match: from the texts remembered in a match,
an observation or nothing. -/
structure ElementRule where
  pattern : Pattern
  report : (Nat → Option String) → Option String

/-- The observations of a rule on a source text, in the order of the text. -/
def ElementRule.observations (rule : ElementRule) (source : List Char) : List String :=
  (rule.pattern.allMatches source).filterMap fun found =>
    rule.report fun index => (found.group? source index).map String.ofList

/-- A named list of rules for the languages of one family. -/
structure Extractor where
  name : String
  rules : List ElementRule

/-- The observations of all rules on a source text, rule by rule. -/
def Extractor.observations (extractor : Extractor) (source : String) : List String :=
  extractor.rules.flatMap (·.observations source.toList)

namespace Extractor

open Pattern Text

/-- White space, at least one character. -/
def gap : Pattern := oneOrMore isBlank

/-- White space or nothing. -/
def mayGap : Pattern := many isBlank

/-- A word, remembered as the first group. -/
def namedWord : Pattern := group 1 (oneOrMore isWordChar)

/-- From an opening to the next closing round bracket. -/
def bracketed : Pattern :=
  sequence [literal "(", many (· != ')'), literal ")"]

/-- Reports the first group under a label. -/
def labelled (label : String) (groups : Nat → Option String) : Option String :=
  (groups 1).map fun name => label ++ ": " ++ name

/-! ## Python -/

/-- A class with or without bases. -/
def pythonClass : ElementRule where
  pattern := sequence [literal "class", gap, namedWord, optional bracketed, literal ":"]
  report := labelled "Defines class"

/-- A function without a return annotation. Names that begin with a low line are private and go
unreported. -/
def pythonFunction : ElementRule where
  pattern := sequence [literal "def", gap, namedWord, mayGap, bracketed, literal ":"]
  report groups := do
    let name ← groups 1
    if name.toList.head? == some '_' then none else some ("Defines function: " ++ name)

/-- An import of modules, or of names from a module. -/
def pythonImport : ElementRule where
  pattern := sequence
    [optional (sequence [literal "from", gap, group 1 (oneOrMore (!isBlank ·)), gap]),
      literal "import", gap, group 2 (oneOrMore (· != '\n'))]
  report groups := do
    let items ← groups 2
    match groups 1 with
    | some origin => some ("Imports from " ++ origin ++ ": " ++ items)
    | none => some ("Imports: " ++ items)

/-- The rules for Python. -/
def python : Extractor := ⟨"python", [pythonClass, pythonFunction, pythonImport]⟩

/-! ## JavaScript and TypeScript -/

/-- A function declared by its keyword. -/
def scriptFunction : ElementRule where
  pattern := sequence [literal "function", gap, namedWord, mayGap, literal "("]
  report := labelled "Defines function"

/-- A name bound to an arrow function. What stands between the equals sign and the arrow holds no
further equals sign, except inside round brackets. -/
def scriptArrow : ElementRule where
  pattern := sequence
    [choice [literal "const", literal "let", literal "var"], gap, namedWord, mayGap, literal "=",
      mayGap, repeated (either bracketed (one (· != '='))), literal "=>"]
  report := labelled "Defines arrow function"

/-- A class with or without a base. -/
def scriptClass : ElementRule where
  pattern := sequence
    [literal "class", gap, namedWord,
      optional (sequence [gap, literal "extends", gap, oneOrMore isWordChar])]
  report := labelled "Defines class"

/-- A declaration that is exported. -/
def scriptExport : ElementRule where
  pattern := sequence
    [literal "export", gap, optional (sequence [literal "default", gap]),
      optional (choice
        [literal "class", literal "function", literal "const", literal "let", literal "var"]),
      mayGap, namedWord]
  report := labelled "Exports"

/-- The rules for JavaScript and TypeScript. -/
def script : Extractor := ⟨"script", [scriptFunction, scriptArrow, scriptClass, scriptExport]⟩

/-! ## Go -/

/-- A function or a method; the receiver is passed over. -/
def goFunction : ElementRule where
  pattern := sequence
    [literal "func", gap, optional (sequence [bracketed, gap]), namedWord, mayGap, literal "("]
  report := labelled "Defines function"

/-- A type declared as a structure. -/
def goStruct : ElementRule where
  pattern := sequence [literal "type", gap, namedWord, gap, literal "struct"]
  report := labelled "Defines struct"

/-- A type declared as an interface. -/
def goInterface : ElementRule where
  pattern := sequence [literal "type", gap, namedWord, gap, literal "interface"]
  report := labelled "Defines interface"

/-- The rules for Go. -/
def go : Extractor := ⟨"go", [goFunction, goStruct, goInterface]⟩

/-! ## Choosing -/

/-- No rules at all, for languages that are not looked into. -/
def noop : Extractor := ⟨"noop", []⟩

/-- The extractor for a language. -/
def forLanguage : Language → Extractor
  | .python => python
  | .javaScript | .typeScript => script
  | .go => go
  | .rust | .java | .cpp | .c | .shell | .ruby | .php | .swift | .kotlin | .unknown => noop

end Extractor

/-- The observations on a source text in the given language. -/
def Language.observations (language : Language) (source : String) : List String :=
  (Extractor.forLanguage language).observations source

end FileLore
