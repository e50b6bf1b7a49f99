import FileLore.Log.Directive

/-!
# Log filters

Which messages are logged is up to a filter: a list of directives, separated by
commas. A directive about targets and names of fields alone speaks of messages
themselves, and of those that speak of a message the closest one decides. A
directive about work, or about fields of it, lets messages pass that come in the
course of such work, whatever other directives say.
-/

namespace FileLore.Log

/-- A message as filters see it. -/
structure Message where
  target : String
  level : Level
  /-- The names of its fields. -/
  fields : List String

/-- Work in the course of which messages come. -/
structure Work where
  target : String
  name : String
  /-- Its fields with their values. -/
  fields : List (String × String)

namespace Scope

/-- Whether the scope is a matter of messages themselves. -/
def isOfMessages (scope : Scope) : Bool :=
  scope.work?.isNone && scope.field?.all (·.value?.isNone)

/-- Whether the scope is a matter of the work in the course of which messages come. -/
def isOfWork (scope : Scope) : Bool :=
  scope.work?.isSome || scope.field?.isSome

/-- Whether the scope holds a message. -/
def holdsMessage (scope : Scope) (message : Message) : Bool :=
  scope.isOfMessages && scope.coversTarget message.target &&
    scope.field?.all fun field => message.fields.any (·.toList == field.name)

/-- Whether the scope holds work. -/
def holdsWork (scope : Scope) (work : Work) : Bool :=
  scope.isOfWork && scope.coversTarget work.target && scope.work?.all (· == work.name.toList) &&
    scope.field?.all fun field =>
      match work.fields.lookup (String.ofList field.name) with
      | some value => field.value?.all (·.holds value)
      | none => false

/-- How close two scopes are to what both hold: first it counts how much of the target they give,
then whether they name a field, and last the order of the names. -/
def closeness (first second : Scope) : Ordering :=
  let length (scope : Scope) : Nat := (scope.target?.map (·.length + 1)).getD 0
  let fieldName (scope : Scope) : String := (scope.field?.map (String.ofList ·.name)).getD ""
  ((compare (length first) (length second)).then
    (compare first.field?.isSome second.field?.isSome)).then
    (compare (fieldName first) (fieldName second))

end Scope

/-- Which messages are logged. -/
inductive Filter where
  /-- All messages of this program that are not only for debugging. -/
  | standard
  /-- What the directives say. -/
  | directed (directives : List Directive)

namespace Filter

/-- The filter that a setting asks for. A setting without directives asks for errors alone; one that
cannot be read does not count. None if reading it fails inside a character. -/
def ofSetting? : Option String → Option Filter
  | none => some standard
  | some setting =>
    let parts := (Text.splitAt ',' setting.toList).filter (!·.isEmpty)
    match parts.mapM Directive.ofText with
    | .ok [] => some (directed [⟨.all, .error⟩])
    | .ok directives => some (directed directives)
    | .error .unreadable => some standard
    | .error .splitCharacter => none

/-- The directives without those that a later one of the same scope replaces. -/
def inForce : List Directive → List Directive
  | [] => []
  | directive :: rest =>
    if rest.any (·.scope = directive.scope) then inForce rest else directive :: inForce rest

/-- The closest to a message of the directives that speak of it. -/
def closest? (message : Message) : List Directive → Option Directive
  | [] => none
  | directive :: rest =>
    let other? := closest? message rest
    if directive.scope.holdsMessage message then
      match other? with
      | some other =>
        if directive.scope.closeness other.scope == .gt then some directive else some other
      | none => some directive
    else other?

/-- Whether the filter lets a message pass that comes in the course of the works given. -/
def passes (filter : Filter) (works : List Work) (message : Message) : Bool :=
  let allows (directive : Directive) : Bool := message.level.rank ≤ directive.level.rank
  match filter with
  | standard => message.level.rank ≤ Level.info.rank
  | directed directives =>
    let directives := inForce directives
    (closest? message directives).any allows ||
      works.any fun work =>
        directives.any fun directive => directive.scope.holdsWork work && allows directive

/-- Of directives with the same scope only the last one counts. -/
theorem inForce_cons_of_replaced (directive later : Directive) (rest : List Directive)
    (hmem : later ∈ rest) (hscope : later.scope = directive.scope) :
    inForce (directive :: rest) = inForce rest := by
  rw [inForce, if_pos]
  exact List.any_eq_true.mpr ⟨later, hmem, decide_eq_true hscope⟩

end Filter

end FileLore.Log
