import FileLore.Text.Hexadecimal
import FileLore.Text.Search

/-!
# Writing TOML

A document of sections with settings. A text is written in the plainest of the
four forms of a string that can hold it as it is: in double quotes, in single
quotes, or in three of either with lines of its own; where none can, the
characters that stand in the way are written as escapes.
-/

namespace FileLore.Toml

open Text

/-- The length of the longest run of `c` in the text, `current` of them standing right before it. -/
def longestRun (c : Char) (current longest : Nat) : List Char → Nat
  | [] => longest
  | d :: rest =>
    if d = c then longestRun c (current + 1) (max longest (current + 1)) rest
    else longestRun c 0 longest rest

/-- Whether `c` can stand in a string only as an escape. -/
def needsEscape (c : Char) : Bool :=
  (c.toNat < 0x20 && c != '\t' && c != '\n') || c.toNat == 0x7F

/-- How a string is written: the quote, and whether it may hold lines. -/
inductive StringForm where
  | basic
  | literal
  | basicLines
  | literalLines
  deriving DecidableEq, Repr

/-- The plainest form that can hold the text. -/
def formOf (text : List Char) : StringForm :=
  let escapes := text.any needsEscape
  let backslash := text.contains '\\'
  let line := text.contains '\n'
  let double := longestRun '"' 0 0 text
  let single := longestRun '\'' 0 0 text
  if !escapes && !backslash && double == 0 && !line then .basic
  else if !escapes && single == 0 && !line then .literal
  else if !escapes && !backslash && double ≤ 2 then .basicLines
  else if !escapes && single ≤ 2 then .literalLines
  else if line then .basicLines
  else .basic

/-- One character other than a quote in a string with escapes. -/
def escapedChar (lines : Bool) (c : Char) : List Char :=
  if c = '\x08' then ['\\', 'b']
  else if c = '\t' then ['\\', 't']
  else if c = '\n' then if lines then ['\n'] else ['\\', 'n']
  else if c = '\x0c' then ['\\', 'f']
  else if c = '\r' then ['\\', 'r']
  else if c = '\\' then ['\\', '\\']
  else if c.toNat < 0x20 || c.toNat == 0x7F then ['\\', 'u'] ++ hexFour 'A' c.toNat
  else [c]

/-- The text with escapes, where at most `most` quotes may follow one another; `run` of them stand
right before it. -/
def escaped (lines : Bool) (most run : Nat) : List Char → List Char
  | [] => []
  | c :: rest =>
    if c = '"' then
      if run < most then '"' :: escaped lines most (run + 1) rest
      else '\\' :: '"' :: escaped lines most 0 rest
    else escapedChar lines c ++ escaped lines most 0 rest

/-- The text as a string in the given form. A string that may hold lines and does begins on a line
of its own. -/
def writtenAs (form : StringForm) (text : List Char) : List Char :=
  let start := if text.contains '\n' then ['\n'] else []
  match form with
  | .basic => '"' :: escaped false 0 0 text ++ ['"']
  | .literal => '\'' :: text ++ ['\'']
  | .basicLines => ['"', '"', '"'] ++ start ++ escaped true 2 0 text ++ ['"', '"', '"']
  | .literalLines => ['\'', '\'', '\''] ++ start ++ text ++ ['\'', '\'', '\'']

/-- The text as a string in the plainest form. -/
def stringText (text : String) : List Char :=
  writtenAs (formOf text.toList) text.toList

/-- A section of a document: its name, and its settings with their values as they are written. -/
structure Section where
  name : String
  settings : List (String × List Char)

/-- The section, every line with its end. -/
def Section.text (part : Section) : List Char :=
  '[' :: part.name.toList ++ [']', '\n'] ++
    part.settings.flatMap fun setting =>
      setting.1.toList ++ [' ', '=', ' '] ++ setting.2 ++ ['\n']

/-- The document, with an empty line between each two sections. -/
def documentText (sections : List Section) : String :=
  String.ofList (joinWith ['\n'] (sections.map (·.text)))

end FileLore.Toml
