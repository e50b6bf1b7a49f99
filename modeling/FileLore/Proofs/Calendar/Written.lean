import FileLore.Proofs.Calendar.Gregorian
import FileLore.Proofs.Text.Decimal

/-!
# Reading dates

How the text of a date and time is read: the last fifteen characters are the month,
the day and the time of day, two digits each and the marks between them, and what
stands before them is the year. A year of four digits has no sign; a plus stands
before a longer one, a hyphen before one ahead of the year 0. A date and time that
exists is read back from its text (`ofText?_text`).
-/

namespace FileLore

open Text

/-- The number that a text of digits spells, with a hyphen in front if it is negative. -/
def instantOfText? : List Char → Option Int
  | '-' :: digits => (natOfText? digits).map fun n => -(n : Int)
  | digits => (natOfText? digits).map fun n => (n : Int)

theorem instantOfText?_intText (instant : Int) : instantOfText? (intText instant) = some instant := by
  cases instant with
  | ofNat n =>
    have hdigits : instantOfText? (natText n) = (natOfText? (natText n)).map fun n => (n : Int) := by
      unfold instantOfText?
      split
      · next digits heq =>
        have hhyphen : '-' ∈ natText n := heq ▸ List.mem_cons_self
        exact absurd (digit_of_mem_natText hhyphen) (by decide)
      · rfl
    rw [intText, hdigits, natOfText?_natText]
    rfl
  | negSucc n =>
    rw [intText, instantOfText?, natOfText?_natText]
    rfl

namespace DateTime

/-- The year that a text spells: four digits, or a plus and a number of more digits, or a hyphen and
the years before the year 0. -/
def yearOfText? : List Char → Option Int
  | '+' :: digits => ((natOfText? digits).filter (9999 < ·)).map fun n => (n : Int)
  | '-' :: digits => ((natOfText? digits).filter (0 < ·)).map fun n => -(n : Int)
  | digits => if digits.length = 4 then (natOfText? digits).map fun n => (n : Int) else none

/-- The date and time that a text spells. -/
def ofText? (text : List Char) : Option DateTime :=
  match text.drop (text.length - 15) with
  | ['-', month, month', '-', day, day', ' ', hour, hour', ':', minute, minute', ':', second,
      second'] => do
    return {
      year := ← yearOfText? (text.take (text.length - 15))
      month := ← natOfText? [month, month']
      day := ← natOfText? [day, day']
      hour := ← natOfText? [hour, hour']
      minute := ← natOfText? [minute, minute']
      second := ← natOfText? [second, second'] }
  | _ => none

/-- A text of digits has no sign. -/
theorem yearOfText?_digits {digits : List Char} (h : ∀ c ∈ digits, (digitValue? c).isSome)
    (hlength : digits.length = 4) :
    yearOfText? digits = (natOfText? digits).map fun n => (n : Int) := by
  unfold yearOfText?
  split
  · next more =>
    exact absurd (h '+' List.mem_cons_self) (by decide)
  · next more =>
    exact absurd (h '-' List.mem_cons_self) (by decide)
  · exact if_pos hlength

theorem yearOfText?_yearText (year : Int) : yearOfText? (yearText year) = some year := by
  cases year with
  | ofNat n =>
    rw [yearText]
    split
    · next hfits =>
      rw [yearOfText?_digits (fun c => digit_of_mem_paddedText)
        (length_paddedText (Nat.lt_succ_of_le hfits)), natOfText?_paddedText]
      rfl
    · next hlong =>
      rw [yearOfText?, natOfText?_natText, Option.filter_some,
        if_pos (decide_eq_true (Nat.not_le.mp hlong))]
      rfl
  | negSucc n =>
    rw [yearText, yearOfText?, natOfText?_paddedText, Option.filter_some,
      if_pos (decide_eq_true (Nat.succ_pos n))]
    rfl

/-- A number below a hundred has two digits, with a zero in front if it needs one. -/
theorem paddedText_two : ∀ n < 100, paddedText 2 n = [digitChar (n / 10), digitChar (n % 10)] ∧
    natOfText? [digitChar (n / 10), digitChar (n % 10)] = some n := by
  decide +kernel

theorem IsValid.day_lt {t : DateTime} (h : t.IsValid) : t.day < 100 := by
  have hlengths : ∀ month ≤ 12, ∀ leap : Bool, monthLength leap month ≤ 31 := by decide
  have hlength := hlengths t.month h.month.2 (isLeapYear t.year)
  have hday := h.day.2
  omega

/-- **A date and time that exists is read back from its text.** -/
theorem ofText?_text {t : DateTime} (h : t.IsValid) : ofText? t.text.toList = some t := by
  obtain ⟨hmonth, hmonth'⟩ := paddedText_two t.month (by have := h.month.2; omega)
  obtain ⟨hday, hday'⟩ := paddedText_two t.day h.day_lt
  obtain ⟨hhour, hhour'⟩ := paddedText_two t.hour (Nat.lt_trans h.hour (by decide))
  obtain ⟨hminute, hminute'⟩ := paddedText_two t.minute (Nat.lt_trans h.minute (by decide))
  obtain ⟨hsecond, hsecond'⟩ := paddedText_two t.second (Nat.lt_trans h.second (by decide))
  rw [text, String.toList_ofList, hmonth, hday, hhour, hminute, hsecond]
  simp only [List.append_assoc, List.cons_append, List.nil_append]
  have hdrop {rest : List Char} (hrest : rest.length = 15) :
      (yearText t.year ++ rest).drop ((yearText t.year ++ rest).length - 15) = rest := by
    rw [List.length_append, hrest, Nat.add_sub_cancel, List.drop_left]
  have htake {rest : List Char} (hrest : rest.length = 15) :
      (yearText t.year ++ rest).take ((yearText t.year ++ rest).length - 15) = yearText t.year := by
    rw [List.length_append, hrest, Nat.add_sub_cancel, List.take_left]
  unfold ofText?
  rw [hdrop rfl, htake rfl, yearOfText?_yearText]
  -- All marks stand where they are looked for.
  simp only
  rw [hmonth', hday', hhour', hminute', hsecond']
  rfl

example : timestamp (-62167219201) = "-0001-12-31 23:59:59" := by
  decide +kernel

end DateTime

end FileLore
