/-!
# TOML values

What a TOML document holds. Settings are texts and whole numbers in tables, so
values of other kinds are told apart by their kind alone.

A table remembers how it came to be, for that decides what may still be added to
it: a table with a header of its own is complete when the next header comes, one
that is only implied by the header of a table inside it may still get its own, one
made by a dotted key may grow by further dotted keys, and one written in braces
is complete.
-/

namespace FileLore

/-- How a table came to be. -/
inductive TableOrigin where
  | header
  | implied
  | dotted
  | braces
  deriving DecidableEq, Repr

/-- A TOML value. -/
inductive Toml where
  | string (value : String)
  | integer (value : Int)
  | float
  | boolean (value : Bool)
  /-- A date, a time of day, or both. -/
  | date
  | array (items : List Toml)
  | table (origin : TableOrigin) (entries : List (String × Toml))
  /-- The tables that share a header in double brackets. -/
  | tables (items : List (List (String × Toml)))

namespace Toml

/-- The entries of a table, in the order in which they came. -/
abbrev Entries := List (String × Toml)

/-- The entries with the value for a key that is there replaced. -/
def Entries.replace (key : String) (value : Toml) : Entries → Entries
  | [] => []
  | (k, v) :: rest =>
    if k = key then (key, value) :: rest else (k, v) :: Entries.replace key value rest

/-- Whether a dotted key may lead through a table, `last` saying that the table is the one that the
value goes to: that one has to be made by dotted keys as well. -/
def admitsDotted (last : Bool) : TableOrigin → Bool
  | .dotted => true
  | .implied => !last
  | .header | .braces => false

/-- The entries with a value added under a key, which is dotted if it has more than one part. None
of its parts may be taken by a value, and the key itself not at all. -/
def Entries.assign (value : Toml) : List String → Entries → Option Entries
  | [], _ => none
  | [key], entries =>
    if (entries.lookup key).isSome then none else some (entries ++ [(key, value)])
  | key :: next :: path, entries =>
    match entries.lookup key with
    | none =>
      (Entries.assign value (next :: path) []).map fun inner =>
        entries ++ [(key, .table .dotted inner)]
    | some (.table origin inner) =>
      if admitsDotted path.isEmpty origin then
        (Entries.assign value (next :: path) inner).map fun changed =>
          entries.replace key (.table origin changed)
      else none
    | some (.tables items) =>
      match items.reverse with
      | inner :: before =>
        if path.isEmpty then none
        else
          (Entries.assign value (next :: path) inner).map fun changed =>
            entries.replace key (.tables (before.reverse ++ [changed]))
      | [] => none
    | some _ => none

/-- The entries with a change made in the table that a header's path leads to. Tables that are
missing on the way are implied; of tables that share a header the last one is meant. -/
def Entries.within (change : Entries → Option Entries) : List String → Entries → Option Entries
  | [], entries => change entries
  | key :: path, entries =>
    match entries.lookup key with
    | none =>
      (Entries.within change path []).map fun inner => entries ++ [(key, .table .implied inner)]
    | some (.table .braces _) => none
    | some (.table origin inner) =>
      (Entries.within change path inner).map fun changed =>
        entries.replace key (.table origin changed)
    | some (.tables items) =>
      match items.reverse with
      | inner :: before =>
        (Entries.within change path inner).map fun changed =>
          entries.replace key (.tables (before.reverse ++ [changed]))
      | [] => none
    | some _ => none

/-- The entries with a table of its own header: a new one, or one that was only implied so far. -/
def Entries.openTable (key : String) (entries : Entries) : Option Entries :=
  match entries.lookup key with
  | none => some (entries ++ [(key, .table .header [])])
  | some (.table .implied inner) => some (entries.replace key (.table .header inner))
  | some _ => none

/-- The entries with one more table under a header in double brackets. -/
def Entries.openListed (key : String) (entries : Entries) : Option Entries :=
  match entries.lookup key with
  | none => some (entries ++ [(key, .tables [[]])])
  | some (.tables items) => some (entries.replace key (.tables (items ++ [[]])))
  | some _ => none

/-- A statement of a document. -/
inductive Statement where
  /-- A header in brackets. -/
  | header (path : List String)
  /-- A header in double brackets. -/
  | listedHeader (path : List String)
  | assignment (path : List String) (value : Toml)

/-- Carries out the statements in turn, `current` being the path of the last header. -/
def Entries.carryOut (current : List String) : List Statement → Entries → Option Entries
  | [], entries => some entries
  | .header path :: rest, entries =>
    match path.getLast? with
    | none => none
    | some key => do
      let entries ← entries.within (·.openTable key) path.dropLast
      entries.carryOut path rest
  | .listedHeader path :: rest, entries =>
    match path.getLast? with
    | none => none
    | some key => do
      let entries ← entries.within (·.openListed key) path.dropLast
      entries.carryOut path rest
  | .assignment path value :: rest, entries => do
    let entries ← entries.within (·.assign value path) current
    entries.carryOut current rest

end Toml

end FileLore
