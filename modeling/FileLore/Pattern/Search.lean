import FileLore.Pattern.Basic

/-!
# Searching a text by a pattern

A search goes through the text from left to right. At every place the preferred
reading of the pattern counts; after a match the search goes on where the match
stopped, so matches never overlap, and between two of them there is no place at
which the pattern could be read. A pattern of which all matches are wanted has to
read at least one character; the leftmost match alone may be empty and may stand
at the end of the text.
-/

namespace FileLore

/-- A stretch of a text that a pattern has read, with the stretches remembered while reading it. -/
structure Match where
  span : Span
  groups : List (Nat × Span)

/-- The characters remembered under `index`, if that part of the pattern took part. -/
def Match.group? (found : Match) (source : List Char) (index : Nat) : Option (List Char) :=
  (found.groups.lookup index).map (·.text source)

namespace Pattern

/-- The preferred reading at one place of a text, `rest` being the text from there on. -/
def matchAt? (pattern : Pattern) (offset : Nat) (rest : List Char) : Option Match :=
  (pattern.firstWay ⟨offset, rest, []⟩ some).map fun place =>
    ⟨⟨offset, place.offset⟩, place.groups⟩

/-- The reading at a place is the preferred one of all ways that the pattern can be read there. -/
theorem matchAt?_eq_head? (pattern : Pattern) (offset : Nat) (rest : List Char) :
    pattern.matchAt? offset rest =
      ((pattern.ways ⟨offset, rest, []⟩).head?).map fun place =>
        ⟨⟨offset, place.offset⟩, place.groups⟩ := by
  rw [matchAt?, firstWay_eq_findSome?]
  cases pattern.ways ⟨offset, rest, []⟩ <;> rfl

/-- The matches from an offset on. Places before `resume` belong to the match before. -/
def matchesFrom (pattern : Pattern) (resume : Nat) : Nat → List Char → List Match
  | _, [] => []
  | offset, c :: rest =>
    if offset < resume then matchesFrom pattern resume (offset + 1) rest
    else
      match pattern.matchAt? offset (c :: rest) with
      | some found => found :: matchesFrom pattern found.span.stop (offset + 1) rest
      | none => matchesFrom pattern resume (offset + 1) rest

/-- All matches of the pattern in the text, from left to right. -/
def allMatches (pattern : Pattern) (source : List Char) : List Match :=
  matchesFrom pattern 0 0 source

/-- The first match from an offset on. -/
def firstMatchFrom? (pattern : Pattern) : Nat → List Char → Option Match
  | offset, [] => pattern.matchAt? offset []
  | offset, c :: rest =>
    (pattern.matchAt? offset (c :: rest)).orElse fun _ =>
      firstMatchFrom? pattern (offset + 1) rest

/-- The leftmost match of the pattern in the text. -/
def firstMatch? (pattern : Pattern) (source : List Char) : Option Match :=
  firstMatchFrom? pattern 0 source

/-- Whether the pattern can be read anywhere in the text. -/
def isFoundIn (pattern : Pattern) (source : List Char) : Bool :=
  (pattern.firstMatch? source).isSome

end Pattern

end FileLore
