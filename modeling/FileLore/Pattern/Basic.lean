import FileLore.Text.LetterCase

/-!
# Patterns

A pattern describes texts by the ways in which a stretch of text can be read. The
ways come in an order of preference: of two alternatives the first is preferred,
a repetition prefers to read more or to read less, and what comes earlier in a
sequence decides before what comes later. `ways` lists all readings from one
place, the preferred ones first; `firstWay` finds the first of them that what
follows accepts, without working out the others.
-/

namespace FileLore

/-- A stretch of a text: the offsets, in characters, at which it starts and stops. -/
structure Span where
  start : Nat
  stop : Nat
  deriving DecidableEq, Repr

/-- The characters of the text that the span covers. -/
def Span.text (span : Span) (source : List Char) : List Char :=
  (source.drop span.start).take (span.stop - span.start)

/-- How often a repetition prefers to read. -/
inductive Preference where
  /-- More rounds before fewer. -/
  | more
  /-- Fewer rounds before more. -/
  | fewer
  deriving DecidableEq, Repr

/-- How a stretch of text may be read. -/
inductive Pattern where
  /-- Reads nothing. -/
  | empty
  /-- Reads one character of a kind. -/
  | one (accepts : Char → Bool)
  /-- Reads characters of a kind, as many as possible before fewer. -/
  | many (accepts : Char → Bool)
  /-- Reads characters of a kind, as few as possible before more. -/
  | few (accepts : Char → Bool)
  /-- Reads by the first pattern and then by the second. -/
  | seq (first second : Pattern)
  /-- Reads by the first pattern or, failing that, by the second. -/
  | either (first second : Pattern)
  /-- Reads by the same pattern once or more. A first round that reads nothing is the only one, and
  later rounds always read something. What the pattern captures is not told apart from one round to
  the next, so it should hold no `group`. -/
  | rounds (preference : Preference) (body : Pattern)
  /-- Reads by the pattern and remembers the stretch that it read. -/
  | group (index : Nat) (body : Pattern)
  /-- Reads nothing, at places of a kind only, which their offset and the text from there on
  decide. -/
  | check (holds : Nat → List Char → Bool)

namespace Pattern

/-- How far a text has been read: the offset reached, the text from there on, and the stretches
remembered so far, the latest first. -/
structure Progress where
  offset : Nat
  rest : List Char
  groups : List (Nat × Span)

namespace Progress

/-- The place after reading `read` characters, of which `rest` is what they leave. -/
def moved (place : Progress) (read : Nat) (rest : List Char) : Progress :=
  { place with offset := place.offset + read, rest := rest }

/-- The place `stop`, with the stretch from `start` to it remembered under `index`. -/
def remember (index : Nat) (start stop : Progress) : Progress :=
  { stop with groups := (index, ⟨start.offset, stop.offset⟩) :: stop.groups }

end Progress

/-- The places reached by reading zero or more characters of a kind, the farthest first, in front of
`nearer`. -/
def longestFirst (accepts : Char → Bool) (nearer : List Progress) (offset : Nat)
    (groups : List (Nat × Span)) : List Char → List Progress
  | [] => ⟨offset, [], groups⟩ :: nearer
  | c :: rest =>
    let here := ⟨offset, c :: rest, groups⟩ :: nearer
    if accepts c then longestFirst accepts here (offset + 1) groups rest else here

/-- The first place, reading as few characters of a kind as possible, that `accept` takes. -/
def shortestFirst (accepts : Char → Bool) (accept : Progress → Option Progress) (offset : Nat)
    (groups : List (Nat × Span)) : List Char → Option Progress
  | [] => accept ⟨offset, [], groups⟩
  | c :: rest =>
    (accept ⟨offset, c :: rest, groups⟩).orElse fun _ =>
      if accepts c then shortestFirst accepts accept (offset + 1) groups rest else none

/-- The places reached by reading zero or more characters of a kind, the nearest first. -/
def nearestFirst (accepts : Char → Bool) (offset : Nat) (groups : List (Nat × Span)) :
    List Char → List Progress
  | [] => [⟨offset, [], groups⟩]
  | c :: rest =>
    ⟨offset, c :: rest, groups⟩ ::
      if accepts c then nearestFirst accepts (offset + 1) groups rest else []

/-- Places collected by repeated steps: those found, the latest first, and a bit for every offset
that has been visited. -/
structure Reached where
  found : List Progress
  visited : Nat

/-- The places with one more among them, unless it has been visited: then all that can be read from
there has already been preferred. -/
def Reached.visit (place : Progress) (reached : Reached) : Reached :=
  if reached.visited.testBit place.offset then reached
  else ⟨place :: reached.found, reached.visited ||| (1 <<< place.offset)⟩

/-- Visits a place and, before or after it, the places that steps lead to from it, in order of
preference. Steps that read nothing lead nowhere new and are left out, so `fuel` characters allow no
more than `fuel` steps. -/
def explore (preference : Preference) (step : Progress → List Progress) :
    Nat → Progress → Reached → Reached
  | 0, place, reached => reached.visit place
  | fuel + 1, place, reached =>
    if reached.visited.testBit place.offset then reached
    else
      let onward (reached : Reached) : Reached :=
        ((step place).filter fun next => place.offset < next.offset).foldl
          (fun reached next => explore preference step fuel next reached) reached
      match preference with
      | .more => (onward reached).visit place
      | .fewer => onward (reached.visit place)

/-- The places reached from `place` by one or more steps, in order of preference. -/
def allRounds (preference : Preference) (step : Progress → List Progress) (place : Progress) :
    List Progress :=
  let first (reached : Reached) (next : Progress) : Reached :=
    if place.offset < next.offset then explore preference step next.rest.length next reached
    else reached.visit next
  ((step place).foldl first ⟨[], 0⟩).found.reverse

/-- All places that the pattern can read to from `place`, in order of preference. -/
def ways : Pattern → Progress → List Progress
  | empty, place => [place]
  | one accepts, place =>
    match place.rest with
    | [] => []
    | c :: rest => if accepts c then [place.moved 1 rest] else []
  | many accepts, place => longestFirst accepts [] place.offset place.groups place.rest
  | few accepts, place => nearestFirst accepts place.offset place.groups place.rest
  | seq first second, place => (ways first place).flatMap (ways second)
  | either first second, place => ways first place ++ ways second place
  | rounds preference body, place => allRounds preference (ways body) place
  | group index body, place => (ways body place).map (place.remember index)
  | check holds, place => if holds place.offset place.rest then [place] else []

/-- The first result of `accept` among the places that the pattern can read to from `place`, in
order of preference. -/
def firstWay : Pattern → Progress → (Progress → Option Progress) → Option Progress
  | empty, place, accept => accept place
  | one accepts, place, accept =>
    match place.rest with
    | [] => none
    | c :: rest => if accepts c then accept (place.moved 1 rest) else none
  | many accepts, place, accept =>
    (longestFirst accepts [] place.offset place.groups place.rest).findSome? accept
  | few accepts, place, accept =>
    shortestFirst accepts accept place.offset place.groups place.rest
  | seq first second, place, accept =>
    firstWay first place fun next => firstWay second next accept
  | either first second, place, accept =>
    (firstWay first place accept).orElse fun _ => firstWay second place accept
  | rounds preference body, place, accept =>
    (allRounds preference (ways body) place).findSome? accept
  | group index body, place, accept =>
    firstWay body place fun stop => accept (place.remember index stop)
  | check holds, place, accept => if holds place.offset place.rest then accept place else none

/-! ## Composite patterns -/

/-- Reads by all the patterns, one after the other. -/
def sequence : List Pattern → Pattern
  | [] => empty
  | [last] => last
  | first :: others => seq first (sequence others)

/-- Reads by the first of the patterns that leads on. -/
def choice : List Pattern → Pattern
  | [] => one fun _ => false
  | [last] => last
  | first :: others => either first (choice others)

/-- Reads exactly these characters. -/
def literal (text : String) : Pattern :=
  sequence (text.toList.map fun c => one (· == c))

/-- Reads these ASCII letters, each in either case. -/
def keyword (text : String) : Pattern :=
  sequence (text.toList.map fun c => one (Text.isCaseOf c))

/-- Reads at least one character of a kind, as many as possible. -/
def oneOrMore (accepts : Char → Bool) : Pattern :=
  seq (one accepts) (many accepts)

/-- Reads by the pattern or nothing, whichever is preferred. -/
def maybe (preference : Preference) (body : Pattern) : Pattern :=
  match preference with
  | .more => either body empty
  | .fewer => either empty body

/-- Reads by the pattern if that leads on, and nothing otherwise. -/
def optional (body : Pattern) : Pattern :=
  maybe .more body

/-- Reads by the pattern again and again, as often as possible before less often, or nothing. -/
def repeated (body : Pattern) : Pattern :=
  optional (rounds .more body)

/-- Reads nothing, at the end of the text only. -/
def atEnd : Pattern :=
  check fun _ rest => rest.isEmpty

/-! ## The two readings of a pattern agree -/

/-- The first result over lists joined together is the first of the lists' first results. -/
theorem findSome?_flatMap_eq {α β γ : Type} (f : α → List β) (g : β → Option γ) (items : List α) :
    (items.flatMap f).findSome? g = items.findSome? fun item => (f item).findSome? g := by
  induction items with
  | nil => rfl
  | cons item rest ih =>
    rw [List.flatMap_cons, List.findSome?_append, ih, List.findSome?_cons]
    cases (f item).findSome? g <;> rfl

/-- Trying places while a lazy repetition goes on finds what the list of all its places gives. -/
theorem shortestFirst_eq_findSome? (accepts : Char → Bool)
    (accept : Progress → Option Progress) (groups : List (Nat × Span)) (text : List Char) :
    ∀ offset : Nat, shortestFirst accepts accept offset groups text =
      (nearestFirst accepts offset groups text).findSome? accept := by
  induction text with
  | nil =>
    intro offset
    rw [shortestFirst, nearestFirst, List.findSome?_singleton]
  | cons c rest ih =>
    intro offset
    rw [shortestFirst, nearestFirst, List.findSome?_cons]
    cases accept ⟨offset, c :: rest, groups⟩ with
    | some found => rfl
    | none =>
      cases h : accepts c with
      | true => simpa using ih (offset + 1)
      | false => rfl

/-- **The first accepted way is the first accepted of all ways.** -/
theorem firstWay_eq_findSome? (pattern : Pattern) :
    ∀ (place : Progress) (accept : Progress → Option Progress),
      pattern.firstWay place accept = (pattern.ways place).findSome? accept := by
  induction pattern with
  | empty =>
    intro place accept
    rw [firstWay, ways, List.findSome?_singleton]
  | one accepts =>
    intro place accept
    rw [firstWay, ways]
    cases place.rest with
    | nil => rfl
    | cons c rest => by_cases h : accepts c <;> simp [h]
  | many accepts =>
    intro place accept
    rfl
  | few accepts =>
    intro place accept
    exact shortestFirst_eq_findSome? accepts accept place.groups place.rest place.offset
  | seq first second ihFirst ihSecond =>
    intro place accept
    rw [firstWay, ways, findSome?_flatMap_eq, ihFirst]
    exact congrArg (fun f => (ways first place).findSome? f)
      (funext fun next => ihSecond next accept)
  | either first second ihFirst ihSecond =>
    intro place accept
    rw [firstWay, ways, List.findSome?_append, ihFirst, ihSecond]
    cases (ways first place).findSome? accept <;> rfl
  | rounds preference body _ =>
    intro place accept
    rfl
  | group index body ih =>
    intro place accept
    rw [firstWay, ways, List.findSome?_map, ih]
    rfl
  | check holds =>
    intro place accept
    rw [firstWay, ways]
    by_cases h : holds place.offset place.rest <;> simp [h]

end Pattern

end FileLore
