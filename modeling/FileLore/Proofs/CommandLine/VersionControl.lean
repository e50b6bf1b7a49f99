import FileLore.CommandLine.Collaborators
import FileLore.Proofs.Text.Decimal
import FileLore.Proofs.Tracker.Remote

/-!
# What version control tells

Version control is asked where the remote called origin is and how many commits a
branch has. Its answers are taken for what they tell: the repository to which the
address leads (`originRepository?_eq_some_iff`), and the number that is spelled, if 64
bits hold it (`commitCount?_eq_some_iff`).
-/

namespace FileLore

open Text

/-- Whether version control prints a text for some arguments; bytes that are no text are replaced in
it. -/
def Surroundings.Prints (surroundings : Surroundings) (arguments : List String) (text : String) :
    Prop :=
  ∃ answer, surroundings.versionControl arguments = some answer ∧ lossyText answer = text

variable {surroundings : Surroundings} {arguments : List String} {text : String}

theorem Surroundings.versionControlText?_eq_some_iff :
    surroundings.versionControlText? arguments = some text ↔
      surroundings.Prints arguments text :=
  Option.map_eq_some_iff

/-- The repository of the remote called origin is the one to which its address leads. -/
theorem Settings.originRepository?_eq_some_iff {origin : Repository} :
    originRepository? surroundings = some origin ↔
      ∃ address, surroundings.Prints ["remote", "get-url", "origin"] address ∧
        Repository.LeadsTo address origin := by
  rw [originRepository?, Option.bind_eq_some_iff]
  simp only [Surroundings.versionControlText?_eq_some_iff, Repository.ofRemote?_eq_some_iff]

/-! ## Numbers of commits -/

/-- Whether a text tells a number of commits: white space around it aside, by digits, of which there
is at least one, perhaps with a plus sign before them. -/
structure IsCommitCount (text : String) (count : Nat) : Prop where
  spelled : ∃ (sign : List Char) (digits : List Nat), (sign = [] ∨ sign = ['+']) ∧ digits ≠ [] ∧
    (∀ digit ∈ digits, digit < 10) ∧ trim text.toList = sign ++ digits.map Nat.digitChar ∧
      Nat.ofDigits 10 digits.reverse = count
  fits : count < 2 ^ 64

/-- The text behind a plus sign, if it begins with one. -/
def behindPlus : List Char → List Char
  | '+' :: rest => rest
  | text => text

/-- No digit is a plus sign. -/
theorem map_digitChar_ne_plus {digits : List Nat} (h : ∀ digit ∈ digits, digit < 10)
    (rest : List Char) : digits.map Nat.digitChar ≠ '+' :: rest := by
  have hplus : ∀ digit < 10, Nat.digitChar digit ≠ '+' := by decide
  intro heq
  obtain ⟨digit, more, rfl, hdigit, -⟩ := List.map_eq_cons_iff.mp heq
  exact hplus digit (h digit List.mem_cons_self) hdigit

theorem behindPlus_eq_digits_iff {text : List Char} {digits : List Nat}
    (h : ∀ digit ∈ digits, digit < 10) : behindPlus text = digits.map Nat.digitChar ↔
      ∃ sign, (sign = [] ∨ sign = ['+']) ∧ text = sign ++ digits.map Nat.digitChar := by
  unfold behindPlus
  split
  next rest =>
    constructor
    · rintro rfl
      exact ⟨['+'], .inr rfl, rfl⟩
    · rintro ⟨sign, rfl | rfl, htext⟩
      · exact absurd htext.symm (map_digitChar_ne_plus h rest)
      · exact (List.cons.inj htext).2
  next hplus =>
    constructor
    · rintro rfl
      exact ⟨[], .inl rfl, rfl⟩
    · rintro ⟨sign, rfl | rfl, htext⟩
      · exact htext
      · exact absurd htext (hplus _)

theorem commitCount?_eq_filter : commitCount? text =
    (natOfText? (behindPlus (trim text.toList))).filter (· < 2 ^ 64) := by
  unfold commitCount?
  dsimp only
  split
  next number hread =>
    have hbehind : natOfText? (behindPlus (trim text.toList)) = some number := hread
    rw [hbehind, Option.filter_some]
    simp
  next hread =>
    have hbehind : natOfText? (behindPlus (trim text.toList)) = none := hread
    rw [hbehind]
    rfl

/-- **The number of commits** is the one that is spelled, if 64 bits hold it. -/
theorem commitCount?_eq_some_iff {count : Nat} :
    commitCount? text = some count ↔ IsCommitCount text count := by
  rw [commitCount?_eq_filter, Option.filter_eq_some_iff, natOfText?_eq_some_iff, decide_eq_true_iff]
  constructor
  · rintro ⟨⟨digits, hne, hlt, htext, hcount⟩, hfits⟩
    obtain ⟨sign, hsign, htext⟩ := (behindPlus_eq_digits_iff hlt).mp htext
    exact ⟨⟨sign, digits, hsign, hne, hlt, htext, hcount⟩, hfits⟩
  · rintro ⟨⟨sign, digits, hsign, hne, hlt, htext, hcount⟩, hfits⟩
    exact ⟨⟨digits, hne, hlt, (behindPlus_eq_digits_iff hlt).mpr ⟨sign, hsign, htext⟩, hcount⟩, hfits⟩

end FileLore
