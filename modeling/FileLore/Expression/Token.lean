import FileLore.Expression.Basic
import FileLore.Text.Hexadecimal

/-!
# Tokens of expressions

The smallest parts of a written expression: sets of characters, bars, repetitions,
brackets and switches. A set is written as one character, as an escape, or as a
class between square brackets, which may hold further classes. Every reader takes
a text and yields what stands at its start with the rest, or nothing.
-/

namespace FileLore

/-- What letters between round brackets turn on and off. -/
inductive Switch where
  /-- Letters are read in any case. -/
  | anyCase
  /-- Starts and ends are those of lines. -/
  | byLine
  /-- The point reads line feeds too. -/
  | wholeText
  /-- Repetitions prefer fewer rounds, and more when marked. -/
  | swapped
  /-- Characters are those of all scripts. -/
  | allScripts
  deriving DecidableEq, Repr

namespace Switch

/-- The switch that a letter stands for. -/
def ofLetter? : Char → Option Switch
  | 'i' => some anyCase
  | 'm' => some byLine
  | 's' => some wholeText
  | 'U' => some swapped
  | 'u' => some allScripts
  | _ => none

end Switch

/-- A part of a written expression. -/
inductive Token where
  /-- One character of a set. -/
  | one (set : CharacterSet)
  /-- The point. -/
  | point
  /-- The start of the text or of a line. -/
  | start
  /-- The end of the text or of a line. -/
  | finish
  /-- The start of the text. -/
  | textStart
  /-- The end of the text. -/
  | textEnd
  /-- The bar between two alternatives. -/
  | bar
  /-- How often to read what stands before. -/
  | times (times : Repetition) (preference : Preference)
  /-- The start of a group, perhaps with a name, and the switches that are turned in it. -/
  | opens (name? : Option (List Char)) (turned : List (Switch × Bool))
  /-- The end of a group. -/
  | closes
  /-- Switches that are turned for the rest of the group. -/
  | turns (turned : List (Switch × Bool))
  deriving DecidableEq, Repr

namespace Token

open Text

/-! ## Escapes -/

/-- Whether a backslash may stand before `c` to mean just `c`. -/
def isMark (c : Char) : Bool :=
  c.toNat < 0x80 && !isAsciiLetter c && !isAsciiDigit c && c != '<' && c != '>'

/-- What an escape stands for, the text being what follows the backslash. -/
def escape? : List Char → Option (Token × List Char)
  | 'A' :: rest => some (textStart, rest)
  | 'z' :: rest => some (textEnd, rest)
  | 'd' :: rest => some (one .digit, rest)
  | 'D' :: rest => some (one (.others .digit), rest)
  | 's' :: rest => some (one .blank, rest)
  | 'S' :: rest => some (one (.others .blank), rest)
  | 'w' :: rest => some (one .word, rest)
  | 'W' :: rest => some (one (.others .word), rest)
  | 'a' :: rest => some (one (.one '\x07'), rest)
  | 'f' :: rest => some (one (.one '\x0c'), rest)
  | 'n' :: rest => some (one (.one '\n'), rest)
  | 'r' :: rest => some (one (.one '\r'), rest)
  | 't' :: rest => some (one (.one '\t'), rest)
  | 'v' :: rest => some (one (.one '\x0b'), rest)
  | 'x' :: rest => (codePoint? 2 rest).map fun (c, rest) => (one (.one c), rest)
  | 'u' :: rest => (codePoint? 4 rest).map fun (c, rest) => (one (.one c), rest)
  | 'U' :: rest => (codePoint? 8 rest).map fun (c, rest) => (one (.one c), rest)
  | c :: rest => if isMark c then some (one (.one c), rest) else none
  | [] => none

/-! ## Classes -/

/-- A character or a kind of characters, as it may stand in a class. -/
def classItem? : List Char → Option (CharacterSet × List Char)
  | '\\' :: rest =>
    match escape? rest with
    | some (one set, rest) => some (set, rest)
    | _ => none
  | c :: rest => some (.one c, rest)
  | [] => none

/-- A character, a kind of characters or a range. A hyphen makes no range before the closing bracket
or before another hyphen. -/
def classMember? (text : List Char) : Option (CharacterSet × List Char) :=
  match classItem? text with
  | none => none
  | some (set, '-' :: ']' :: rest) => some (set, '-' :: ']' :: rest)
  | some (set, '-' :: '-' :: rest) => some (set, '-' :: '-' :: rest)
  | some (.one first, '-' :: rest) =>
    match classItem? rest with
    | some (.one last, rest) => if first ≤ last then some (.range first last, rest) else none
    | _ => none
  | some (_, '-' :: _) => none
  | some (set, rest) => some (set, rest)

/-- A set of ASCII characters by its name between colons, perhaps turned into its opposite, after
the opening bracket. -/
def namedClass? : List Char → Option (CharacterSet × List Char)
  | ':' :: text =>
    let (opposite, text) :=
      match text with
      | '^' :: rest => (true, rest)
      | _ => (false, text)
    let name := text.takeWhile (· != ':')
    match CharacterSet.ofName? name, text.drop name.length with
    | some set, ':' :: ']' :: rest => some (if opposite then .others set else set, rest)
    | _, _ => none
  | _ => none

/-- The set so far: what an operation makes of all before it and what has been read since. -/
def combined (before? : Option (CharacterSet → CharacterSet)) (set : CharacterSet) : CharacterSet :=
  match before? with
  | some before => before set
  | none => set

mutual

/-- A class after the opening bracket. Hyphens right at its start stand for themselves, and so does
a closing bracket. -/
def class? : Nat → List Char → Option (CharacterSet × List Char)
  | 0, _ => none
  | fuel + 1, text =>
    let (opposite, text) :=
      match text with
      | '^' :: rest => (true, rest)
      | _ => (false, text)
    let inside :=
      match text with
      | ']' :: rest => members? fuel none (.one ']') rest
      | '-' :: _ => members? fuel none (.one '-') (text.dropWhile (· == '-'))
      | _ => members? fuel none .nothing text
    inside.map fun (set, rest) => (if opposite then .others set else set, rest)

/-- What is left of a class, up to the closing bracket. Operations take all that stands before them
as their first set, and what stands up to the next one as their second. -/
def members? : Nat → Option (CharacterSet → CharacterSet) → CharacterSet → List Char →
    Option (CharacterSet × List Char)
  | 0, _, _, _ => none
  | _ + 1, _, _, [] => none
  | _ + 1, before?, set, ']' :: rest => some (combined before? set, rest)
  | fuel + 1, before?, set, '&' :: '&' :: rest =>
    members? fuel (some (.both (combined before? set))) .nothing rest
  | fuel + 1, before?, set, '-' :: '-' :: rest =>
    members? fuel (some (.without (combined before? set))) .nothing rest
  | fuel + 1, before?, set, '~' :: '~' :: rest =>
    members? fuel (some (.unlike (combined before? set))) .nothing rest
  | fuel + 1, before?, set, '[' :: rest =>
    match (namedClass? rest).orElse fun _ => class? fuel rest with
    | some (more, rest) => members? fuel before? (.either set more) rest
    | none => none
  | fuel + 1, before?, set, text =>
    match classMember? text with
    | some (more, rest) => members? fuel before? (.either set more) rest
    | none => none

end

/-! ## Groups -/

/-- Switches up to a colon or a closing bracket: those before a hyphen are turned on, those after it
off. None may stand twice, and the last one may not be missing. -/
def turned? (on : Bool) (turned : List (Switch × Bool)) :
    List Char → Option (List (Switch × Bool) × List Char)
  | [] => none
  | c :: rest =>
    if c = ':' || c = ')' then some (turned, c :: rest)
    else if c = '-' then
      match rest with
      | ':' :: _ => none
      | ')' :: _ => none
      | _ => if on then turned? false turned rest else none
    else
      match Switch.ofLetter? c with
      | some switch =>
        if turned.any (·.1 == switch) || (switch == .allScripts && !on) then none
        else turned? on (turned ++ [(switch, on)]) rest
      | none => none

/-- Whether a group may have this name: a letter or low line, then perhaps letters, numerals, low
lines, points and square brackets. -/
def isGroupName : List Char → Bool
  | [] => false
  | c :: rest =>
    (c == '_' || isLetter c) &&
      rest.all fun c => c == '_' || c == '.' || c == '[' || c == ']' || isLetterOrNumeral c

/-- The start of a group with a name, after the bracket that opens the name. -/
def named? (text : List Char) : Option (Token × List Char) :=
  let name := text.takeWhile (· != '>')
  match text.drop name.length with
  | '>' :: rest => if isGroupName name then some (opens (some name) [], rest) else none
  | _ => none

/-- The start of a group, or switches, after the opening bracket. -/
def opening? : List Char → Option (Token × List Char)
  | '?' :: 'P' :: '<' :: rest => named? rest
  | '?' :: '<' :: rest => named? rest
  | '?' :: rest =>
    match turned? true [] rest with
    | some (turned, ':' :: rest) => some (opens none turned, rest)
    | some (turned, _ :: rest) => if turned.isEmpty then none else some (turns turned, rest)
    | _ => none
  | rest => some (opens none [], rest)

/-! ## Tokens -/

/-- A repetition, which prefers more rounds unless a question mark follows. -/
def repetition (repetition : Repetition) : List Char → Token × List Char
  | '?' :: rest => (times repetition .fewer, rest)
  | rest => (times repetition .more, rest)

/-- The first token of a text. Counted repetitions are not known. -/
def first? : List Char → Option (Token × List Char)
  | [] => none
  | c :: rest =>
    if c = '\\' then escape? rest
    else if c = '[' then (class? (rest.length + 1) rest).map fun (set, rest) => (one set, rest)
    else if c = '(' then opening? rest
    else if c = ')' then some (closes, rest)
    else if c = '|' then some (bar, rest)
    else if c = '.' then some (point, rest)
    else if c = '^' then some (start, rest)
    else if c = '$' then some (finish, rest)
    else if c = '?' then some (repetition .optional rest)
    else if c = '*' then some (repetition .anyNumber rest)
    else if c = '+' then some (repetition .oneOrMore rest)
    else if c = '\x7b' then none
    else some (one (.one c), rest)

/-- The tokens of a text; every token takes at least one character. -/
def all? : Nat → List Char → Option (List Token)
  | _, [] => some []
  | 0, _ :: _ => none
  | fuel + 1, text =>
    match first? text with
    | some (token, rest) => (all? fuel rest).map (token :: ·)
    | none => none

/-- The tokens of a text. -/
def ofText? (text : List Char) : Option (List Token) :=
  all? text.length text

/-- The name of the group that a token opens. -/
def groupName? : Token → Option (List Char)
  | opens name? _ => name?
  | _ => none

end Token

end FileLore
