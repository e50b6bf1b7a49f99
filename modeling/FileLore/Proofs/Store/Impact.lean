import FileLore.Proofs.Json.Meaning
import FileLore.Proofs.Json.Written
import FileLore.Proofs.Number.Sign
import FileLore.Proofs.Store.Summary
import FileLore.Proofs.Text.Document

/-!
# The count that is shown

An impact artifact is any JSON text with a member that gives the number of dependent
files. If this number is whole and 64 bits hold it, signed or not, the summary shows it
to the last digit just if it is positive (`summary_count`). It is the last member
called `count` of the object itself that counts, however often and wherever else there
is one, and however its name is escaped. That the number is rounded before it is
compared with zero takes no count away (`Number.isPositive_integer`).

All this takes a text that has a meaning. A text is stored whatever it spells, and a
number out of range or half a character anywhere in it, also in members that nobody
asks for, leaves the file without a count.
-/

namespace FileLore

open Json (Spelling SpellsNumber allSpace_nil greatestDepth spellsMember_stringText)
open Json.NumberSpelling (wholeValue)

/-! ## Texts with a count -/

/-- Whether a text spells an object, nested no deeper than can be read, in which the last member
called `count` is a whole number, without point and power, that 64 bits hold. -/
structure GivesCount (text : String) (members : List (Option String × Spelling)) (n : Int) :
    Prop where
  spelled : Json.SpellsText text (.object members)
  shallow : (Spelling.object members).depth ≤ greatestDepth
  last : ∃ front back negative digits,
    members = front ++ (some "count", .number ⟨negative, digits, none, none⟩) :: back ∧
      (∀ member ∈ back, member.1 ≠ some "count") ∧
      wholeValue negative digits = n
  least : -2 ^ 63 ≤ n
  greatest : n < 2 ^ 64

/-- The line on a count of dependent files. -/
def countLine (n : Int) : String :=
  "Impact: " ++ toString n ++ " dependent files"

theorem impactLines_integer {n : Int} (hleast : -2 ^ 63 ≤ n) (hgreatest : n < 2 ^ 64) :
    impactLines (.integer n) = if 0 < n then [countLine n] else [] := by
  rw [impactLines, Number.text, Text.intText_eq, String.ofList_toList,
    Number.isPositive_integer hleast hgreatest, countLine]
  simp only [decide_eq_true_eq]

/-- A whole number that 64 bits hold is shown to the last digit if it is positive. -/
theorem exists_count {negative : Bool} {digits : List Nat} {n : Int}
    (hn : wholeValue negative digits = n) (hleast : -2 ^ 63 ≤ n) (hgreatest : n < 2 ^ 64) :
    ∃ count, Json.NumberSpelling.value? ⟨negative, digits, none, none⟩ = some count ∧
      impactLines count = if 0 < n then [countLine n] else [] := by
  subst hn
  refine ⟨_, Json.NumberSpelling.value?_whole hleast hgreatest, ?_⟩
  split
  next hzero =>
    -- Minus zero is the one whole number that is kept in double precision.
    rw [hzero.2]
    rfl
  next => exact impactLines_integer hleast hgreatest

namespace Cache

open Disk

variable {cache : Cache} {path text : String} {members : List (Option String × Spelling)} {n : Int}
  {disk : Disk}

/-- A text that stands for nothing gives no count. -/
theorem impactCountOf_unsound (h : GivesCount text members n)
    (hsound : ¬(Spelling.object members).IsSound) : impactCountOf text = .error .malformed := by
  have hnone : Json.ofText? text = none := by
    rw [Json.ofText?_of_spellsText h.spelled, ← Option.not_isSome_iff_eq_none,
      Json.ofSpelling?_isSome]
    exact fun hsome => hsound hsome.2
  rw [impactCountOf, hnone]

/-- A text that stands for something gives the count that it spells. -/
theorem impactCountOf_sound (h : GivesCount text members n)
    (hsound : (Spelling.object members).IsSound) :
    ∃ count, impactCountOf text = .ok (some count) ∧
      impactLines count = if 0 < n then [countLine n] else [] := by
  obtain ⟨front, back, negative, digits, rfl, hback, hn⟩ := h.last
  obtain ⟨object, hobject⟩ := Option.isSome_iff_exists.mp
    ((Json.ofSpelling?_isSome _ greatestDepth).mpr ⟨h.shallow, hsound⟩)
  obtain ⟨meant, hmeant, hmember⟩ := Json.member?_of_last hobject hback
  obtain ⟨count, hcount, hlines⟩ := exists_count hn h.least h.greatest
  rw [Json.ofSpelling?, hcount, Option.map_some] at hmeant
  obtain rfl := Option.some.inj hmeant
  refine ⟨count, ?_, hlines⟩
  rw [impactCountOf, Json.ofText?_of_spellsText h.spelled, hobject]
  simp only [hmember]

theorem contextLines_of_absent (h : cache.artifactText? .context path disk = none) :
    cache.contextLines path disk = [] := by
  rw [contextLines_eq, h]
  rfl

/-- **The summary shows exactly the count that is stored**, if the text stands for something and no
context can be read: the number to its last digit if it is positive, and nothing if it is not. No
context may be there when the summary is made; that follows if there was none before, the disk being
a tree and the root straight. A text that stands for nothing shows no count. -/
theorem summary_count (cache : Cache) (path text : String)
    (members : List (Option String × Spelling)) (n : Int) (disk last : Disk) (log : List Operation)
    (hcount : GivesCount text members n)
    (hstored : (cache.storeText .impact path text).Ends disk log true last)
    (habsent : cache.artifactText? .context path last = none ∨
      disk.IsTree ∧ disk.IsStraight cache.root ∧ cache.artifactText? .context path disk = none) :
    ((Spelling.object members).IsSound → (cache.summary? path).run last =
      (if 0 < n then some (countLine n) else none, last)) ∧
    (¬(Spelling.object members).IsSound → (cache.summary? path).run last = (none, last)) := by
  obtain ⟨target, log', hstore⟩ := ends_of_isStored hstored
  have hnone : cache.artifactText? .context path last = none := by
    rcases habsent with hafter | ⟨htree, hstraight, hbefore⟩
    · exact hafter
    · -- The count has another name, so storing it leaves the context artifact absent.
      have hname := artifactName_ne (show Namespace.context ≠ .impact by decide) path path
      have hsame := congrFun (store_stops_other htree hstraight hname hstore.stops) []
      rw [artifactText?_congr hsame, hbefore]
  have himpact : cache.impactLine path last =
      ((loaded (impactCountOf text)).map impactLines).getD [] := by
    rw [impactLine_eq, artifactText?_of_store hstore, Option.bind_some]
  rw [summary_lines, contextLines_of_absent hnone, List.nil_append, himpact]
  constructor
  · intro hsound
    obtain ⟨count, hcountOf, hlines⟩ := impactCountOf_sound hcount hsound
    rw [hcountOf]
    simp only [loaded, Option.map_some, Option.getD_some, hlines]
    split
    next => rw [if_neg (List.cons_ne_nil _ _), Text.joinedLines_singleton]
    next => rw [if_pos rfl]
  · intro hsound
    rw [impactCountOf_unsound hcount hsound]
    rfl

end Cache

/-! ## Three such texts -/

/-- A whole number is written by its own digits. -/
theorem wholeValue_ofInt (n : Int) :
    wholeValue (decide (n < 0)) (Text.decimalDigits n.natAbs) = n := by
  rw [wholeValue, Text.valueOfDigits_decimalDigits]
  by_cases h : n < 0
  · rw [decide_eq_true h, if_pos rfl]
    omega
  · rw [decide_eq_false h, if_neg Bool.false_ne_true]
    omega

/-- The greatest count of all, after two members of the same name that do not count. -/
def greatestCount : String :=
  "\x7b\"count\":\"x\",\"a\":\x7b\"count\":1\x7d,\"count\":18446744073709551615\x7d"

theorem givesCount_greatest :
    GivesCount greatestCount
      [(some "count", .string (some "x")), (some "a", .object [(some "count", .number (.ofInt 1))]),
        (some "count", .number (.ofInt 18446744073709551615))] 18446744073709551615 where
  spelled := by
    have hbody := Json.spells_compactChars (show Json.spelling? (.object
      [("count", .string "x"), ("a", .object [("count", .number (.integer 1))]),
        ("count", .number (.integer 18446744073709551615))]) = some _ from rfl)
    exact ⟨[], _, [], allSpace_nil, hbody, allSpace_nil, by decide +kernel⟩
  shallow := by decide +kernel
  last := ⟨[_, _], [], _, _, rfl, by simp, wholeValue_ofInt _⟩
  least := by decide
  greatest := by decide

/-- A count after a number that is out of range. -/
def countOutOfRange : String := "\x7b\"files\":1e999,\"count\":3\x7d"

theorem givesCount_outOfRange :
    GivesCount countOutOfRange
      [(some "files", .number ⟨false, [1], none, some (false, [9, 9, 9])⟩),
        (some "count", .number (.ofInt 3))] 3 where
  spelled := by
    have hwhole : Json.AreDigits [1] := ⟨by decide, by decide⟩
    have hpower : Json.AreDigits [9, 9, 9] := ⟨by decide, by decide⟩
    have hnumber :=
      SpellsNumber.mk false hwhole (by simp) .absent (.unsigned (Or.inl (Eq.refl 'e')) hpower)
    have hfirst := spellsMember_stringText "files" allSpace_nil (.number hnumber) allSpace_nil
    have hlast := spellsMember_stringText "count" allSpace_nil
      (.number (Json.spellsNumber_intText 3)) allSpace_nil
    exact ⟨[], _, [], allSpace_nil, .object allSpace_nil
      (.more hfirst allSpace_nil (.last hlast)), allSpace_nil, by decide +kernel⟩
  shallow := by decide +kernel
  last := ⟨[_], [], _, _, rfl, by simp, wholeValue_ofInt _⟩
  least := by decide
  greatest := by decide

theorem not_isSound_outOfRange :
    ¬(Spelling.object [(some "files", .number ⟨false, [1], none, some (false, [9, 9, 9])⟩),
      (some "count", .number (.ofInt 3))]).IsSound := by
  have hrange : Json.NumberSpelling.value? ⟨false, [1], none, some (false, [9, 9, 9])⟩ = none := by
    decide +kernel
  rintro ⟨-, hfirst, -⟩
  rw [Spelling.IsSound, hrange] at hfirst
  cases hfirst

/-- A count and nothing else. -/
def threeCounted : String := "\x7b\"count\":3\x7d"

theorem givesCount_three :
    GivesCount threeCounted [(some "count", .number (.ofInt 3))] 3 where
  spelled := by
    have hbody := Json.spells_compactChars
      (show Json.spelling? (.object [("count", .number (.integer 3))]) = some _ from rfl)
    exact ⟨[], _, [], allSpace_nil, hbody, allSpace_nil, by decide +kernel⟩
  shallow := by decide +kernel
  last := ⟨[], [], _, _, rfl, by simp, wholeValue_ofInt _⟩
  least := by decide
  greatest := by decide

namespace Cache

open Disk

theorem isStored_greatestCount :
    (((Cache.mk "kb").storeText .impact "x" greatestCount).run ⟨[], []⟩).1 = true := by
  decide +kernel

theorem isStored_countOutOfRange :
    (((Cache.mk "kb").storeText .impact "x" countOutOfRange).run ⟨[], []⟩).1 = true := by
  decide +kernel

/-- The greatest count is shown to the last digit, and the count after a number out of range is not
shown. -/
theorem summary_count_greatest :
    (∃ log last, ((Cache.mk "kb").storeText .impact "x" greatestCount).Ends ⟨[], []⟩ log true last ∧
      ((Cache.mk "kb").summary? "x").run last =
        (some "Impact: 18446744073709551615 dependent files", last)) ∧
    ∃ log last,
      ((Cache.mk "kb").storeText .impact "x" countOutOfRange).Ends ⟨[], []⟩ log true last ∧
      ((Cache.mk "kb").summary? "x").run last = (none, last) := by
  have habsent {last : Disk} : (Cache.mk "kb").artifactText? .context "x" last = none ∨
      (⟨[], []⟩ : Disk).IsTree ∧ (⟨[], []⟩ : Disk).IsStraight "kb" ∧
        (Cache.mk "kb").artifactText? .context "x" ⟨[], []⟩ = none :=
    Or.inr ⟨isTree_empty [], isStraight_of_noUp (by decide), rfl⟩
  constructor
  · obtain ⟨log, hends⟩ :=
      FileTask.ends_run ((Cache.mk "kb").storeText .impact "x" greatestCount) ⟨[], []⟩
    rw [isStored_greatestCount] at hends
    obtain ⟨hshown, -⟩ := summary_count ⟨"kb"⟩ "x" _ _ _ _ _ _ givesCount_greatest hends habsent
    refine ⟨log, _, hends, ?_⟩
    rw [hshown ⟨rfl, rfl, rfl, ⟨rfl, rfl, trivial⟩, rfl, rfl, trivial⟩]
    rfl
  · obtain ⟨log, hends⟩ :=
      FileTask.ends_run ((Cache.mk "kb").storeText .impact "x" countOutOfRange) ⟨[], []⟩
    rw [isStored_countOutOfRange] at hends
    obtain ⟨-, hshown⟩ := summary_count ⟨"kb"⟩ "x" _ _ _ _ _ _ givesCount_outOfRange hends habsent
    exact ⟨log, _, hends, hshown not_isSound_outOfRange⟩

/-- **Not every count that is stored is shown.** A number out of range elsewhere in the text takes
it away, and in a root that leads through a missing directory and back, storing it may bring a
context to light. -/
theorem not_summary_count :
    (¬∀ (cache : Cache) (path text : String) (members : List (Option String × Spelling)) (n : Int)
      (disk last : Disk) (log : List Operation), GivesCount text members n → disk.IsTree →
        disk.IsStraight cache.root → ((cache.read .context path).run disk).1 = .ok none →
        (cache.storeText .impact path text).Ends disk log true last →
        ((cache.summary? path).run last).1 = if 0 < n then some (countLine n) else none) ∧
    ¬∀ (cache : Cache) (path text : String) (members : List (Option String × Spelling)) (n : Int)
      (disk last : Disk) (log : List Operation), GivesCount text members n →
        (Spelling.object members).IsSound → disk.IsTree →
        ((cache.read .context path).run disk).1 = .ok none →
        (cache.storeText .impact path text).Ends disk log true last →
        ((cache.summary? path).run last).1 = if 0 < n then some (countLine n) else none := by
  constructor
  · intro h
    obtain ⟨log, hends⟩ :=
      FileTask.ends_run ((Cache.mk "kb").storeText .impact "x" countOutOfRange) ⟨[], []⟩
    rw [isStored_countOutOfRange] at hends
    have hshown := h ⟨"kb"⟩ "x" _ _ _ _ _ _ givesCount_outOfRange (isTree_empty [])
      (isStraight_of_noUp (by decide)) (by decide +kernel) hends
    exact absurd hshown (by decide +kernel)
  · intro h
    let kept := singleFile "b" "x_context.json" "\x7b\"imports\":[\"os\"]\x7d"
    obtain ⟨log, hends⟩ :=
      FileTask.ends_run ((Cache.mk "a/../b").storeText .impact "x" threeCounted) kept
    have hstored :
        (((Cache.mk "a/../b").storeText .impact "x" threeCounted).run kept).1 = true := by
      decide +kernel
    rw [hstored] at hends
    have hshown := h _ "x" _ _ _ _ _ _ givesCount_three ⟨rfl, rfl, trivial⟩
      (isTree_singleFile "b" "x_context.json" _) (by decide +kernel) hends
    exact absurd hshown (by decide +kernel)

end Cache

end FileLore
