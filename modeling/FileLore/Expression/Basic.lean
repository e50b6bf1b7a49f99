import FileLore.Expression.CharacterSet
import FileLore.Pattern.Search

/-!
# Expressions

An expression describes texts as a pattern does, and can be written down: it is
made of data alone. What it means is a pattern, `Expression.patternIn`, which may
depend on the text that is searched, because a line may start at any place of it.
-/

namespace FileLore

/-- How often something may be read. -/
inductive Repetition where
  /-- Once or not at all. -/
  | optional
  /-- Any number of times. -/
  | anyNumber
  /-- Once or more. -/
  | oneOrMore
  deriving DecidableEq, Repr

/-- How a stretch of text may be read, as data. -/
inductive Expression where
  /-- Reads nothing. -/
  | empty
  /-- Reads one character of a set, perhaps in any case. -/
  | one (set : CharacterSet) (anyCase : Bool)
  /-- Reads nothing, at the start of the text. -/
  | textStart
  /-- Reads nothing, at the end of the text. -/
  | textEnd
  /-- Reads nothing, at the start of a line. -/
  | lineStart
  /-- Reads nothing, at the end of a line. -/
  | lineEnd
  /-- Reads by the first expression and then by the second. -/
  | seq (first second : Expression)
  /-- Reads by the first expression or, failing that, by the second. -/
  | either (first second : Expression)
  /-- Reads by the same expression several times. -/
  | repeated (times : Repetition) (preference : Preference) (body : Expression)
  deriving DecidableEq, Repr

namespace Expression

/-- The pattern that the expression stands for when `source` is searched. -/
def patternIn (source : List Char) : Expression → Pattern
  | empty => .empty
  | one set anyCase => .one (set.holds anyCase)
  | textStart => .check fun offset _ => offset == 0
  | textEnd => .atEnd
  | lineStart => .check fun offset _ => offset == 0 || source[offset - 1]? == some '\n'
  | lineEnd => .check fun _ rest => rest.isEmpty || rest.head? == some '\n'
  | seq first second => .seq (first.patternIn source) (second.patternIn source)
  | either first second => .either (first.patternIn source) (second.patternIn source)
  | repeated .optional preference body => .maybe preference (body.patternIn source)
  | repeated .oneOrMore preference body => .rounds preference (body.patternIn source)
  | repeated .anyNumber preference body =>
    .maybe preference (.rounds preference (body.patternIn source))

/-- The leftmost match of the expression in a text. -/
def firstMatch? (expression : Expression) (source : List Char) : Option Match :=
  (expression.patternIn source).firstMatch? source

/-- Whether the leftmost match of the expression in a text stops where the text ends. -/
def reachesEnd (expression : Expression) (source : List Char) : Bool :=
  (expression.firstMatch? source).any (·.span.stop == source.length)

end Expression

end FileLore
