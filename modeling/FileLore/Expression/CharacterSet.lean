import FileLore.Text.Blank
import FileLore.Text.LetterCase
import FileLore.Text.Numeral
import FileLore.Text.Word

/-!
# Sets of characters

The sets that a single character of an expression is taken from: characters and
ranges of them, digits, white space and word characters, and what is made of two
sets or of all others. Read in any case, a set also holds the letters that differ
from its own only in case.
-/

namespace FileLore

/-- A set of characters. -/
inductive CharacterSet where
  /-- No character. -/
  | nothing
  /-- One character. -/
  | one (c : Char)
  /-- The characters from one to another, both included. -/
  | range (first last : Char)
  /-- The decimal digits of all scripts. -/
  | digit
  /-- White space. -/
  | blank
  /-- The characters that identifiers are made of. -/
  | word
  /-- What is in the first set or in the second. -/
  | either (first second : CharacterSet)
  /-- What is in both sets. -/
  | both (first second : CharacterSet)
  /-- What is in the first set and not in the second. -/
  | without (first second : CharacterSet)
  /-- What is in one of the sets and not in the other. -/
  | unlike (first second : CharacterSet)
  /-- What is not in the set. -/
  | others (set : CharacterSet)
  deriving DecidableEq, Repr

namespace CharacterSet

/-- The characters to look for in a range in place of `c`: itself or, read in any case, also the
forms that it takes as a small letter and as a capital. -/
def lookedFor (anyCase : Bool) (c : Char) : List Char :=
  if anyCase then
    let small := Text.caseForm c
    [c, small, Text.aloneOr small (Text.upper small)]
  else [c]

/-- Whether the set, perhaps read in any case, holds `c`. -/
def holds (anyCase : Bool) : CharacterSet → Char → Bool
  | nothing, _ => false
  | one a, c => c == a || (anyCase && Text.caseForm c == Text.caseForm a)
  | range first last, c => (lookedFor anyCase c).any fun c => first ≤ c && c ≤ last
  | digit, c => Text.isDecimalDigit c
  | blank, c => Text.isBlank c
  | word, c => Text.isWordChar c
  | either first second, c => first.holds anyCase c || second.holds anyCase c
  | both first second, c => first.holds anyCase c && second.holds anyCase c
  | without first second, c => first.holds anyCase c && !second.holds anyCase c
  | unlike first second, c => first.holds anyCase c != second.holds anyCase c
  | others set, c => !set.holds anyCase c

/-- The characters that are in one of the ranges. -/
def ofRanges : List (Char × Char) → CharacterSet
  | [] => nothing
  | (first, last) :: rest => either (range first last) (ofRanges rest)

/-- All characters but the line feed. -/
def ofLine : CharacterSet := others (one '\n')

/-- All characters. -/
def all : CharacterSet := others nothing

/-- Sets of ASCII characters with their names. -/
def asciiNames : List (String × List (Char × Char)) :=
  [("alnum", [('0', '9'), ('A', 'Z'), ('a', 'z')]),
    ("alpha", [('A', 'Z'), ('a', 'z')]),
    ("ascii", [('\x00', '\x7f')]),
    ("blank", [('\t', '\t'), (' ', ' ')]),
    ("cntrl", [('\x00', '\x1f'), ('\x7f', '\x7f')]),
    ("digit", [('0', '9')]),
    ("graph", [('!', '~')]),
    ("lower", [('a', 'z')]),
    ("print", [(' ', '~')]),
    ("punct", [('!', '/'), (':', '@'), ('[', '\x60'), ('\x7b', '~')]),
    ("space", [('\t', '\r'), (' ', ' ')]),
    ("upper", [('A', 'Z')]),
    ("word", [('0', '9'), ('A', 'Z'), ('_', '_'), ('a', 'z')]),
    ("xdigit", [('0', '9'), ('A', 'F'), ('a', 'f')])]

/-- The set of ASCII characters with this name. -/
def ofName? (name : List Char) : Option CharacterSet :=
  (asciiNames.find? fun entry => entry.1.toList == name).map fun entry => ofRanges entry.2

/-- A set of no ranges holds nothing, and another one what its ranges hold. -/
theorem holds_ofRanges (ranges : List (Char × Char)) (c : Char) :
    (ofRanges ranges).holds false c = ranges.any fun (first, last) => first ≤ c && c ≤ last := by
  induction ranges with
  | nil => rfl
  | cons range rest ih =>
    obtain ⟨first, last⟩ := range
    rw [ofRanges, holds, holds, ih, lookedFor, List.any_cons]
    simp

end CharacterSet

end FileLore
