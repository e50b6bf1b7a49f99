import FileLore.Pattern.Search
import FileLore.Text.Blank
import FileLore.Text.Line
import FileLore.Text.Search

/-!
# Comment markers

Comments that begin with one of four keywords mark work to be done. A marker
has one of nine forms, made of what opens the comment and the keyword in either
case; on a line the first form that is found at all gives the marker, and no line
gives two. The text of a marker is what follows the keyword; it may have to give
back the colon or the white space in front of it to be anything at all.

The kind is read off the whole line, not off the form: a keyword of higher rank
anywhere on the line wins.
-/

namespace FileLore

/-- The kind of a marker. -/
inductive MarkerKind where
  | todo | fixme | hack | note
  deriving DecidableEq, Repr, Inhabited

namespace MarkerKind

/-- The keyword of the kind, in capitals. -/
def tag : MarkerKind → String
  | todo => "TODO"
  | fixme => "FIXME"
  | hack => "HACK"
  | note => "NOTE"

/-- All kinds. -/
def all : List MarkerKind := [todo, fixme, hack, note]

/-- The kind with the given keyword. -/
def ofTag? (tag : String) : Option MarkerKind :=
  all.find? (·.tag == tag)

/-- The kinds by rank, the highest first; the lowest, TODO, needs no keyword on the line. -/
def byRank : List MarkerKind := [fixme, hack, note]

/-- The kind of the marker on a line: the highest whose keyword stands on the line in capitals. -/
def ofLine (line : List Char) : MarkerKind :=
  let capitals := Text.upperText line
  (byRank.find? fun kind => Text.occurs kind.tag.toList capitals).getD todo

end MarkerKind

/-- A marker found in a source file. -/
structure Marker where
  kind : MarkerKind
  /-- What follows the keyword, without white space around it. -/
  text : String
  /-- The number of the line, counted from one. -/
  line : Nat
  /-- The line itself, without white space around it. -/
  context : String
  deriving DecidableEq, Repr

/-- A form that markers come in: what opens the comment, the keyword, and whether the comment has to
be closed on the same line. -/
structure MarkerForm where
  opener : String
  keyword : MarkerKind
  closed : Bool
  deriving DecidableEq, Repr

namespace MarkerForm

open Pattern Text

/-- All forms, in the order in which they are tried. -/
def all : List MarkerForm :=
  [⟨"#", .todo, false⟩, ⟨"//", .todo, false⟩, ⟨"/*", .todo, true⟩,
    ⟨"#", .fixme, false⟩, ⟨"//", .fixme, false⟩,
    ⟨"#", .hack, false⟩, ⟨"//", .hack, false⟩,
    ⟨"#", .note, false⟩, ⟨"//", .note, false⟩]

/-- The text of a marker: the rest of the line or, in a closed comment, what stands before the
nearest end of the comment. -/
def remainder (closed : Bool) : Pattern :=
  if closed then
    seq (group 1 (seq (one (· != '\n')) (few (· != '\n')))) (literal "*/")
  else group 1 (oneOrMore (· != '\n'))

/-- The pattern of the form. -/
def pattern (form : MarkerForm) : Pattern :=
  sequence
    [literal form.opener, many isBlank, Pattern.keyword form.keyword.tag,
      optional (literal ":"), many isBlank, remainder form.closed]

/-- The text that follows the keyword where the form is first found on the line. -/
def textOn? (form : MarkerForm) (line : List Char) : Option (List Char) :=
  (form.pattern.firstMatch? line).bind (·.group? line 1)

end MarkerForm

namespace Marker

open Text

/-- The marker on a line with the given number, by the first form that is found there. -/
def ofLine? (number : Nat) (line : List Char) : Option Marker :=
  (MarkerForm.all.findSome? (·.textOn? line)).map fun text =>
    { kind := MarkerKind.ofLine line
      text := String.ofList (trim text)
      line := number
      context := String.ofList (trim line) }

/-- The markers on lines, of which the first has the given number. -/
def onLines : Nat → List (List Char) → List Marker
  | _, [] => []
  | number, line :: rest =>
    match ofLine? number line with
    | some marker => marker :: onLines (number + 1) rest
    | none => onLines (number + 1) rest

/-- The markers of a source text, at most one a line, in the order of the lines. -/
def scan (source : String) : List Marker :=
  onLines 1 (lines source.toList)

end Marker

end FileLore
