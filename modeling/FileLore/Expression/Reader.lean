import FileLore.Expression.Token

/-!
# Reading expressions

The expression that tokens spell: alternatives between bars, each a sequence, whose
parts may be groups and may be repeated. Groups that are open are kept, the inmost
apart, and each has its own manner of reading, which switches change up to its end.
-/

namespace FileLore

/-- How tokens are to be understood, by the switches that are turned on. -/
structure Manner where
  anyCase : Bool
  byLine : Bool
  wholeText : Bool
  swapped : Bool
  deriving DecidableEq, Repr

namespace Manner

/-- The manner in which an expression begins. -/
def plain : Manner := ⟨false, false, false, false⟩

/-- The manner after a switch has been turned on or off. -/
def turn (manner : Manner) : Switch × Bool → Manner
  | (.anyCase, on) => { manner with anyCase := on }
  | (.byLine, on) => { manner with byLine := on }
  | (.wholeText, on) => { manner with wholeText := on }
  | (.swapped, on) => { manner with swapped := on }
  | (.allScripts, _) => manner

/-- The manner after several switches. -/
def turnAll (manner : Manner) (turned : List (Switch × Bool)) : Manner :=
  turned.foldl turn manner

/-- The other preference if repetitions are swapped. -/
def preferred (manner : Manner) : Preference → Preference
  | .more => if manner.swapped then .fewer else .more
  | .fewer => if manner.swapped then .more else .fewer

end Manner

/-- A group that is open: the manner of reading in it, the alternatives before the last bar, the
sequence since then, and the last part of it, which a repetition would speak of. -/
structure OpenGroup where
  manner : Manner
  before? : Option Expression
  earlier : Expression
  latest? : Option Expression

namespace OpenGroup

/-- A group in which nothing has been read. -/
def new (manner : Manner) : OpenGroup := ⟨manner, none, .empty, none⟩

/-- The sequence since the last bar. -/
def line (group : OpenGroup) : Expression :=
  match group.latest? with
  | some latest => .seq group.earlier latest
  | none => group.earlier

/-- All that has been read in the group. -/
def expression (group : OpenGroup) : Expression :=
  match group.before? with
  | some before => .either before group.line
  | none => group.line

/-- The group with another part. -/
def push (group : OpenGroup) (part : Expression) : OpenGroup :=
  { group with earlier := group.line, latest? := some part }

/-- The group after a bar. -/
def divide (group : OpenGroup) : OpenGroup :=
  { group with before? := some group.expression, earlier := .empty, latest? := none }

/-- The group after switches, which nothing can repeat. -/
def turn (group : OpenGroup) (turned : List (Switch × Bool)) : OpenGroup :=
  { group with manner := group.manner.turnAll turned, earlier := group.line, latest? := none }

/-- The group with its last part repeated, if there is one. -/
def repeat? (group : OpenGroup) (times : Repetition) (preference : Preference) :
    Option OpenGroup :=
  group.latest?.map fun latest =>
    { group with latest? := some (.repeated times (group.manner.preferred preference) latest) }

end OpenGroup

namespace Expression

/-- Reads tokens inside `inmost`, which is inside the groups `around`. -/
def assembled? (inmost : OpenGroup) (around : List OpenGroup) : List Token → Option Expression
  | [] => if around.isEmpty then some inmost.expression else none
  | token :: rest =>
    let with? (part : Expression) : Option Expression := assembled? (inmost.push part) around rest
    let manner := inmost.manner
    match token with
    | .one set => with? (.one set manner.anyCase)
    | .point => with? (.one (if manner.wholeText then .all else .ofLine) false)
    | .start => with? (if manner.byLine then .lineStart else .textStart)
    | .finish => with? (if manner.byLine then .lineEnd else .textEnd)
    | .textStart => with? .textStart
    | .textEnd => with? .textEnd
    | .bar => assembled? inmost.divide around rest
    | .times times preference =>
      match inmost.repeat? times preference with
      | some inmost => assembled? inmost around rest
      | none => none
    | .opens _ turned => assembled? (.new (manner.turnAll turned)) (inmost :: around) rest
    | .closes =>
      match around with
      | [] => none
      | enclosing :: around => assembled? (enclosing.push inmost.expression) around rest
    | .turns turned => assembled? (inmost.turn turned) around rest

/-- The expression that a text spells. No two groups may have the same name. -/
def ofText? (text : List Char) : Option Expression :=
  match Token.ofText? text with
  | some tokens =>
    if (tokens.filterMap (·.groupName?)).Nodup then assembled? (.new .plain) [] tokens else none
  | none => none

end Expression

end FileLore
