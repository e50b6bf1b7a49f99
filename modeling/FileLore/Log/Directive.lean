import FileLore.Expression.Reader
import FileLore.Text.Blank
import FileLore.Text.ByteOffset
import FileLore.Text.Decimal
import FileLore.Text.Numeral
import FileLore.Text.Search

/-!
# Directives of a log filter

A directive gives a level for some messages: those of targets that begin with a
text, those that come in the course of some work, or those with a certain field.
It is written `target[work{field=value}]=level`, where every part may be missing;
for a directive without a level all messages count.
-/

namespace FileLore.Log

open Text

/-- How much is logged, each level including those before it. -/
inductive Level where
  | off | error | warn | info | debug | trace
  deriving DecidableEq, Repr

namespace Level

/-- The place of the level in the order of levels. -/
def rank : Level → Nat
  | off => 0
  | error => 1
  | warn => 2
  | info => 3
  | debug => 4
  | trace => 5

/-- The levels with their names. -/
def names : List (String × Level) :=
  [("off", off), ("error", error), ("warn", warn), ("info", info), ("debug", debug),
    ("trace", trace)]

/-- The number that a text of digits gives, perhaps after a plus sign. -/
def number? : List Char → Option Nat
  | '+' :: digits => natOfText? digits
  | digits => natOfText? digits

/-- A name or number of a level; the empty text stands for errors alone. -/
def ofText? (text : List Char) : Option Level :=
  if text.isEmpty then some error
  else
    match number? text with
    | some n => (names.find? (·.2.rank == n)).map (·.2)
    | none =>
      let small := text.map fun c => if 'A' ≤ c && c ≤ 'Z' then Char.ofNat (c.toNat + 0x20) else c
      (names.find? (·.1.toList == small)).map (·.2)

end Level

/-! ## Fields -/

/-- What a directive asks of the value of a field. -/
inductive ValueTest where
  /-- To be a truth value or a number, which no text is. -/
  | constant (text : List Char)
  /-- To be a text in which the leftmost match of an expression reaches the end. -/
  | like (expression : Expression)
  deriving DecidableEq, Repr

namespace ValueTest

/-- The text after a sign, if there is one. -/
def afterSign : List Char → List Char
  | '+' :: rest => rest
  | '-' :: rest => rest
  | text => text

/-- Whether the text is a power of ten as it ends a number, or nothing. -/
def isPower : List Char → Bool
  | [] => true
  | c :: rest =>
    let digits := afterSign rest
    (c == 'e' || c == 'E') && !digits.isEmpty && digits.all isAsciiDigit

/-- Whether the text is a number: digits, perhaps with a point among or beside them, perhaps with a
power of ten; or a word for what is no finite number. -/
def isNumber (text : List Char) : Bool :=
  let unsigned := afterSign text
  let whole := unsigned.takeWhile isAsciiDigit
  let (places, rest) :=
    match unsigned.drop whole.length with
    | '.' :: rest => (rest.takeWhile isAsciiDigit, rest.dropWhile isAsciiDigit)
    | rest => ([], rest)
  ["inf", "infinity", "nan"].any (fun word => word.toList == lowerText unsigned) ||
    (!(whole.isEmpty && places.isEmpty) && isPower rest)

/-- The test that a text spells. -/
def ofText? (text : List Char) : Option ValueTest :=
  if text = "true".toList || text = "false".toList || isNumber text then some (constant text)
  else (Expression.ofText? text).map like

/-- Whether a field with this text passes the test. -/
def holds : ValueTest → String → Bool
  | constant _, _ => false
  | like expression, value => expression.reachesEnd value.toList

end ValueTest

/-- What a directive asks of a field: its name, and perhaps something of its value. -/
structure FieldTest where
  name : List Char
  value? : Option ValueTest
  deriving DecidableEq, Repr

/-- The test that a text spells: the name and, after an equals sign, the value. A further equals
sign ends the value. -/
def FieldTest.ofText? (text : List Char) : Option FieldTest :=
  match splitAt '=' text with
  | name :: value :: _ => (ValueTest.ofText? value).map fun value => ⟨name, some value⟩
  | name :: [] => some ⟨name, none⟩
  | [] => none

/-! ## Scopes -/

/-- What a directive speaks of. -/
structure Scope where
  /-- What the target begins with. -/
  target? : Option (List Char)
  /-- The name of the work. -/
  work? : Option (List Char)
  field? : Option FieldTest
  deriving DecidableEq, Repr

namespace Scope

/-- All messages. -/
def all : Scope := ⟨none, none, none⟩

/-- Whether a target begins as the scope says. -/
def coversTarget (scope : Scope) (target : String) : Bool :=
  scope.target?.all (·.isPrefixOf target.toList)

end Scope

/-- A directive: the level for what it speaks of. -/
structure Directive where
  scope : Scope
  level : Level
  deriving DecidableEq, Repr

/-- Why a directive cannot be read. -/
inductive Fault where
  /-- The text is no directive. -/
  | unreadable
  /-- A part of the directive would begin or end inside a character. -/
  | splitCharacter
  deriving DecidableEq, Repr

namespace Directive

/-- Whether a directive may begin with `c`, other than with a bracket. -/
def mayBegin (c : Char) : Bool :=
  c == '-' || c == ':' || c == '_' || isLetterOrNumeral c

/-- What has been found, or the fault that it has not. -/
def orUnreadable {α : Type} : Option α → Except Fault α
  | some found => .ok found
  | none => .error .unreadable

/-- The part of the text between two places, counted in bytes. -/
def part (text : List Char) (start stop : Nat) : Except Fault (List Char) :=
  match betweenBytes? start stop text with
  | some part => .ok part
  | none => .error .splitCharacter

/-- The level from a place up to the end; all messages if nothing stands there. -/
def levelFrom (text : List Char) (start : Nat) : Except Fault Level := do
  let level ← part text start (byteLength text)
  if level.isEmpty then return .trace else orUnreadable (Level.ofText? level)

/-- The directive whose brackets end at a place, where `rest` is left to read. -/
def afterBrackets (text : List Char) (scope : Scope) (start : Nat) (rest : List Char) :
    Except Fault Directive :=
  match rest with
  | [] => return ⟨scope, .trace⟩
  | '=' :: _ => return ⟨scope, ← levelFrom text (start + 1)⟩
  | _ => .error .unreadable

/-- The directive whose brackets begin just before a place, where `rest` is left to read. Braces
hold a field; the work in front of them may be left open. -/
def insideBrackets (text : List Char) (target? : Option (List Char)) (start : Nat)
    (rest : List Char) : Except Fault Directive := do
  let length := (rest.takeWhile fun c => c != ']' && c != '\x7b').length
  let stop := start + byteLength (rest.take length)
  match rest.drop length with
  | [] => .error .unreadable
  | ']' :: rest => afterBrackets text ⟨target?, some (← part text start stop), none⟩ (stop + 1) rest
  | _ :: rest =>
    let work ← part text start stop
    let length := (rest.takeWhile (· != '\x7d')).length
    let fieldStop := stop + 1 + byteLength (rest.take length)
    match rest.drop length with
    | [] => .error .unreadable
    | _ :: rest =>
      let field ← part text (stop + 1) fieldStop
      if field.isEmpty then .error .unreadable
      else
        let scope : Scope :=
          { target? := target?
            work? := if work.isEmpty then none else some work
            field? := some (← orUnreadable (FieldTest.ofText? field)) }
        match rest with
        | ']' :: rest => afterBrackets text scope (fieldStop + 2) rest
        | _ => .error .unreadable

/-- The directive that a text gives. White space around it is left out of account when places are
counted, but not when its parts are cut out of the text, so that white space before it shifts all
of them. A text without brackets and equals sign is a level or else a target. -/
def ofText (text : List Char) : Except Fault Directive :=
  match trim text with
  | [] => .error .unreadable
  | '[' :: rest => insideBrackets text none 1 rest
  | first :: others =>
    if mayBegin first then
      let all := first :: others
      let length := (all.takeWhile fun c => c != '=' && c != '[').length
      let stop := byteLength (all.take length)
      match all.drop length with
      | '=' :: _ => do
        let target ← part text 0 stop
        return ⟨⟨some target, none, none⟩, ← levelFrom text (stop + 1)⟩
      | _ :: rest => do
        let target ← part text 0 stop
        insideBrackets text (some target) (stop + 1) rest
      | [] =>
        match Level.ofText? text with
        | some level => return ⟨.all, level⟩
        | none => return ⟨⟨some text, none, none⟩, .trace⟩
    else .error .unreadable

end Directive

end FileLore.Log
