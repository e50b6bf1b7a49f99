import FileLore.Text.Decimal

/-!
# Dates

Instants, counted in seconds from the start of 1970, as dates of the Gregorian
calendar in universal time. The calendar is followed in both directions without
end: the year 0 comes before the year 1, and years before it are negative.

A count of days is read off in a calendar whose years begin in March, so that a
leap day is the last day of its year: four hundred years make 146097 days, and
the months from March on come in groups of five with 153 days.
-/

namespace FileLore

/-- A date with the time of day. -/
structure DateTime where
  year : Int
  month : Nat
  day : Nat
  hour : Nat
  minute : Nat
  second : Nat
  deriving DecidableEq, Repr

namespace DateTime

/-- Days from the first of March of the year 0 to the first of January 1970. -/
def daysToEpoch : Int := 719468

/-- The days of four hundred years. -/
def daysOfEra : Nat := 146097

/-- The year, of the four hundred that begin in March, that holds the day `n` of them. -/
def yearOfEra (n : Nat) : Nat :=
  (n - n / 1460 + n / 36524 - n / 146096) / 365

/-- The days before a year, of the four hundred that begin in March. -/
def daysBeforeYear (year : Nat) : Nat :=
  365 * year + year / 4 - year / 100

/-- The date, as year, month and day, that lies `days` days after the first of January 1970. -/
def ofDays (days : Int) : Int × Nat × Nat :=
  let shifted := days + daysToEpoch
  let era := Int.fdiv shifted daysOfEra
  let dayOfEra := (shifted - era * daysOfEra).toNat
  let year := yearOfEra dayOfEra
  let dayOfYear := dayOfEra - daysBeforeYear year
  let fromMarch := (5 * dayOfYear + 2) / 153
  let day := dayOfYear - (153 * fromMarch + 2) / 5 + 1
  let month := if fromMarch < 10 then fromMarch + 3 else fromMarch - 9
  let inMarchYear := Int.ofNat year + era * 400
  (if month ≤ 2 then inMarchYear + 1 else inMarchYear, month, day)

/-- The date and time of an instant. -/
def ofInstant (instant : Int) : DateTime :=
  let days := Int.fdiv instant 86400
  let seconds := (instant - days * 86400).toNat
  let (year, month, day) := ofDays days
  { year := year
    month := month
    day := day
    hour := seconds / 3600
    minute := seconds / 60 % 60
    second := seconds % 60 }

/-- The year with at least four digits; a year that needs more, or lies before the year 0, has a
sign. -/
def yearText (year : Int) : List Char :=
  match year with
  | .ofNat n => if n ≤ 9999 then Text.paddedText 4 n else '+' :: Text.natText n
  | .negSucc n => '-' :: Text.paddedText 4 (n + 1)

/-- The date and time as year, month and day with hyphens and hour, minute and second with colons,
all but the year with two digits. -/
def text (t : DateTime) : String :=
  String.ofList
    (yearText t.year ++ '-' :: Text.paddedText 2 t.month ++ '-' :: Text.paddedText 2 t.day ++
      ' ' :: Text.paddedText 2 t.hour ++ ':' :: Text.paddedText 2 t.minute ++
      ':' :: Text.paddedText 2 t.second)

end DateTime

/-- The number of an instant in decimal. -/
def instantText (instant : Int) : String :=
  String.ofList (Text.intText instant)

/-- The date and time of an instant as text. -/
def timestamp (instant : Int) : String :=
  (DateTime.ofInstant instant).text

end FileLore
