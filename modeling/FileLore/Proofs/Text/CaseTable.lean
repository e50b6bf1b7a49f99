import FileLore.Proofs.Text.LetterCase
import Mathlib.Data.List.Sort
import Mathlib.Data.List.TakeWhile
import Mathlib.Data.Nat.ModEq

/-!
# What the case tables keep

The tables move letters to letters, and no letter twice: where the other case of a
character is one character, this is in that case already, and it is a letter just if
the first one is (`upper_final`, `lower_final`).

Both are found out in one pass through sorted lists (`covered`, `missed`): that all
runs, and what they move to, lie in ranges of letters, and that no run moves a code
point into a run. Pair by pair this would take the kernel too long.
-/

namespace FileLore.Text

variable {run other : CaseRun} {table runs others : List CaseRun} {apart : List Nat}
  {ranges : CodePoints} {intervals : List (Nat × Nat)} {c d : Char} {n : Nat}

/-! ## Ranges of letters -/

/-- The letters, those of ASCII with them. -/
def letterCodes : CodePoints :=
  (0x41, 0x5A) :: (0x61, 0x7A) :: letterRanges

theorem isLetter_eq (c : Char) : isLetter c = letterCodes.contains c.toNat := by
  unfold isLetter
  split
  · next hascii =>
    have hall : ∀ n < 0x80, isAsciiLetter (Char.ofNat n) =
        letterCodes.contains (Char.ofNat n).toNat := by
      decide +kernel
    exact ascii_forall (P := fun c => isAsciiLetter c = letterCodes.contains c.toNat) hall hascii
  · next houtside =>
    have hcapital : ¬ c.toNat < 0x41 ∧ ¬ c.toNat ≤ 0x5A := by omega
    have hsmall : ¬ c.toNat < 0x61 ∧ ¬ c.toNat ≤ 0x7A := by omega
    rw [letterCodes, CodePoints.contains, if_neg hcapital.1, decide_eq_false hcapital.2,
      Bool.false_or, CodePoints.contains, if_neg hsmall.1, decide_eq_false hsmall.2,
      Bool.false_or]

theorem exists_range_of_contains (h : ranges.contains n = true) :
    ∃ range ∈ ranges, range.1 ≤ n ∧ n ≤ range.2 := by
  induction ranges with
  | nil => cases h
  | cons range rest ih =>
    rw [CodePoints.contains] at h
    split at h
    · cases h
    · next hlow =>
      rcases Bool.or_eq_true _ _ ▸ h with hhigh | hrest
      · exact ⟨range, List.mem_cons_self, Nat.not_lt.mp hlow, of_decide_eq_true hhigh⟩
      · obtain ⟨found, hfound, hn⟩ := ih hrest
        exact ⟨found, List.mem_cons_of_mem _ hfound, hn⟩

/-- In ascending ranges no range is passed by. -/
theorem contains_of_mem (h : List.Pairwise (Order.Preimage Prod.fst (· ≤ ·)) ranges)
    {range : Nat × Nat} (hrange : range ∈ ranges) (hn : range.1 ≤ n ∧ n ≤ range.2) :
    ranges.contains n = true := by
  induction ranges with
  | nil => cases hrange
  | cons first rest ih =>
    obtain ⟨hfirst, hrest⟩ := List.pairwise_cons.mp h
    rw [CodePoints.contains]
    rcases List.mem_cons.mp hrange with rfl | hmem
    · rw [if_neg (Nat.not_lt.mpr hn.1), decide_eq_true hn.2, Bool.true_or]
    · have hlow : first.1 ≤ n := Nat.le_trans (hfirst range hmem) hn.1
      rw [if_neg (Nat.not_lt.mpr hlow), ih hrest hmem, Bool.or_true]

theorem isValidChar_of_contains (h : letterCodes.contains n = true) : n.isValidChar := by
  have hranges : ∀ range ∈ letterCodes,
      range.2 < 0xD800 ∨ 0xDFFF < range.1 ∧ range.2 < 0x110000 := by
    decide +kernel
  obtain ⟨range, hrange, hlow, hhigh⟩ := exists_range_of_contains h
  rcases hranges range hrange with hbelow | ⟨habove, hend⟩
  · exact .inl (Nat.lt_of_le_of_lt hhigh hbelow)
  · exact .inr ⟨Nat.lt_of_lt_of_le habove hlow, Nat.lt_of_le_of_lt hhigh hend⟩

/-- Whether every interval lies in one of the ranges, for intervals and ranges that ascend. -/
def covered : List (Nat × Nat) → CodePoints → Bool
  | [], _ => true
  | interval :: rest, ranges =>
    match ranges.dropWhile fun range => range.2.blt interval.1 with
    | [] => false
    | range :: more =>
      range.1.ble interval.1 && interval.2.ble range.2 && covered rest (range :: more)

theorem exists_range_of_covered (h : covered intervals ranges = true) {interval : Nat × Nat}
    (hmem : interval ∈ intervals) :
    ∃ range ∈ ranges, range.1 ≤ interval.1 ∧ interval.2 ≤ range.2 := by
  induction intervals generalizing ranges with
  | nil => cases hmem
  | cons first rest ih =>
    rw [covered] at h
    split at h
    · cases h
    · next range more hrest =>
      have hsub : range :: more ⊆ ranges := hrest ▸ List.dropWhile_subset _
      simp only [Bool.and_eq_true, Nat.ble_eq] at h
      obtain ⟨hfirst, hcovered⟩ := h
      rcases List.mem_cons.mp hmem with rfl | hmem
      · exact ⟨range, hsub List.mem_cons_self, hfirst⟩
      · obtain ⟨found, hfound, hends⟩ := ih hcovered hmem
        exact ⟨found, hsub hfound, hends⟩

theorem contains_of_covered (h : covered intervals letterCodes = true) {interval : Nat × Nat}
    (hmem : interval ∈ intervals) (hn : interval.1 ≤ n ∧ n ≤ interval.2) :
    letterCodes.contains n = true := by
  have hascend : letterCodes.IsChain (Order.Preimage Prod.fst (· ≤ ·)) := by
    decide +kernel
  obtain ⟨range, hrange, hlow, hhigh⟩ := exists_range_of_covered h hmem
  exact contains_of_mem hascend.pairwise hrange
    ⟨Nat.le_trans hlow hn.1, Nat.le_trans hn.2 hhigh⟩

/-! ## Runs -/

namespace CaseRun

/-- Where the run moves a code point. -/
def moved (run : CaseRun) (n : Nat) : Nat :=
  (Int.ofNat n + run.shift).toNat

/-- The code points of the run. -/
def codes (run : CaseRun) : List Nat :=
  (List.range ((run.last - run.first) / run.stride + 1)).map (run.first + run.stride * ·)

/-- A run of one code point. -/
def single (n : Nat) : CaseRun := ⟨n, n, 1, 0⟩

/-- Intervals with the places of all code points of the run. -/
def pieces (run : CaseRun) (place : Nat → Nat) : List (Nat × Nat) :=
  if run.stride = 1 then [(place run.first, place run.last)]
  else run.codes.map fun n => (place n, place n)

/-- Whether the code points of the run come to lie between those of the other one. -/
def passesBetween (run other : CaseRun) : Bool :=
  (run.first.beq run.last || (run.stride % other.stride).beq 0) &&
    !(run.moved run.first % other.stride).beq (other.first % other.stride)

/-- The run moves no code point into the other one: it stays below it, or above it, or between its
code points. -/
def Misses (run other : CaseRun) : Prop :=
  run.moved run.last < other.first ∨ other.last < run.moved run.first ∨
    run.passesBetween other = true

theorem holds_iff : run.holds n = true ↔
    run.first ≤ n ∧ n ≤ run.last ∧ run.stride ∣ n - run.first := by
  simp only [holds, Bool.and_eq_true, decide_eq_true_eq, beq_iff_eq, Nat.dvd_iff_mod_eq_zero,
    and_assoc]

theorem holds_single (n : Nat) : (single n).holds n = true :=
  holds_iff.mpr ⟨Nat.le_refl n, Nat.le_refl n, Nat.one_dvd _⟩

/-- A run moves all its code points by the same distance. -/
theorem moved_eq (hstart : 0 < run.moved run.first) (h : run.first ≤ n) :
    run.moved n = run.moved run.first + (n - run.first) := by
  simp only [moved, Int.ofNat_eq_natCast] at *
  omega

theorem moved_le (hstart : 0 < run.moved run.first) {m : Nat} (hm : run.first ≤ m) (h : m ≤ n) :
    run.moved m ≤ run.moved n := by
  rw [moved_eq hstart hm, moved_eq hstart (Nat.le_trans hm h)]
  exact Nat.add_le_add_left (Nat.sub_le_sub_right h _) _

theorem mem_codes (h : run.holds n = true) : n ∈ run.codes := by
  obtain ⟨hfirst, hlast, distance, hdistance⟩ := holds_iff.mp h
  refine List.mem_map.mpr ⟨(n - run.first) / run.stride, List.mem_range.mpr ?_, ?_⟩
  · exact Nat.lt_succ_of_le (Nat.div_le_div_right (Nat.sub_le_sub_right hlast _))
  · rw [Nat.mul_div_cancel' ⟨distance, hdistance⟩]
    exact Nat.add_sub_cancel' hfirst

theorem exists_piece {place : Nat → Nat}
    (hplace : ∀ {m n}, run.first ≤ m → m ≤ n → place m ≤ place n) (h : run.holds n = true) :
    ∃ piece ∈ run.pieces place, piece.1 ≤ place n ∧ place n ≤ piece.2 := by
  obtain ⟨hfirst, hlast, -⟩ := holds_iff.mp h
  rw [pieces]
  split
  · exact ⟨_, List.mem_singleton_self _, hplace (Nat.le_refl _) hfirst, hplace hfirst hlast⟩
  · exact ⟨_, List.mem_map_of_mem (mem_codes h), Nat.le_refl _, Nat.le_refl _⟩

theorem not_holds_of_misses (hstart : 0 < run.moved run.first) (hmisses : run.Misses other)
    (h : run.holds n = true) : ¬ other.holds (run.moved n) = true := by
  intro hother
  obtain ⟨hfirst, hlast, hstride⟩ := holds_iff.mp h
  obtain ⟨hotherFirst, hotherLast, hotherStride⟩ := holds_iff.mp hother
  rcases hmisses with hbelow | habove | hbetween
  · exact absurd (moved_le hstart hfirst hlast) (by omega)
  · exact absurd (moved_le hstart (Nat.le_refl _) hfirst) (by omega)
  · simp only [passesBetween, Bool.and_eq_true, Bool.or_eq_true, Nat.beq_eq,
      Bool.not_eq_true'] at hbetween
    obtain ⟨hsteps, hoff⟩ := hbetween
    have hdistance : other.stride ∣ n - run.first := by
      rcases hsteps with hone | hmany
      · rw [Nat.le_antisymm (hone ▸ hlast) hfirst, Nat.sub_self]
        exact Nat.dvd_zero _
      · exact Nat.dvd_trans (Nat.dvd_of_mod_eq_zero hmany) hstride
    have hsame : other.first ≡ run.moved run.first [MOD other.stride] := by
      have hend : other.first ≡ run.moved n [MOD other.stride] :=
        (Nat.modEq_iff_dvd' hotherFirst).mpr hotherStride
      rw [moved_eq hstart hfirst] at hend
      exact hend.trans (Nat.add_modEq_left_iff.mpr hdistance)
    exact absurd hsame.symm (Nat.ne_of_beq_eq_false hoff)

end CaseRun

/-! ## Tables -/

/-- Runs in the order of the places they move to. -/
abbrev AscendingTargets : CaseRun → CaseRun → Prop :=
  Order.Preimage (fun run => run.moved run.first) (· ≤ ·)

/-- Runs in the order of their code points. -/
abbrev AscendingRuns : CaseRun → CaseRun → Prop :=
  Order.Preimage CaseRun.first (· ≤ ·)

/-- Whether every run misses all the others, for runs with ascending targets and other runs that
ascend. -/
def missed : List CaseRun → List CaseRun → Bool
  | [], _ => true
  | run :: rest, others =>
    let near := others.dropWhile fun other => other.last.blt (run.moved run.first)
    (near.takeWhile fun other => other.first.ble (run.moved run.last)).all run.passesBetween &&
      missed rest near

theorem lt_first_of_mem_dropWhile (h : others.Pairwise AscendingRuns) {stop : Nat}
    (hmem : other ∈ others.dropWhile fun other => other.first.ble stop) : stop < other.first := by
  induction others with
  | nil => cases hmem
  | cons head rest ih =>
    obtain ⟨hhead, hrest⟩ := List.pairwise_cons.mp h
    rw [List.dropWhile_cons] at hmem
    split at hmem
    · exact ih hrest hmem
    · next hstop =>
      rw [Nat.ble_eq, Nat.not_le] at hstop
      rcases List.mem_cons.mp hmem with rfl | hmem
      · exact hstop
      · exact Nat.lt_of_lt_of_le hstop (hhead other hmem)

theorem misses_of_missed (hruns : runs.Pairwise AscendingTargets)
    (hothers : others.Pairwise AscendingRuns) (h : missed runs others = true) :
    ∀ run ∈ runs, ∀ other ∈ others, run.Misses other := by
  induction runs generalizing others with
  | nil => exact fun _ hmem => absurd hmem List.not_mem_nil
  | cons first rest ih =>
    obtain ⟨hfirst, hrest⟩ := List.pairwise_cons.mp hruns
    simp only [missed, Bool.and_eq_true, List.all_eq_true] at h
    obtain ⟨hnear, hmissed⟩ := h
    have hascend := hothers.sublist (List.dropWhile_sublist
      (fun other => other.last.blt (first.moved first.first)))
    intro run hrun other hother
    rw [← List.takeWhile_append_dropWhile
      (p := fun other => other.last.blt (first.moved first.first)) (l := others)] at hother
    rcases List.mem_append.mp hother with hpassed | hleft
    · -- What the first run has passed lies below the targets of all runs.
      have hbelow := List.mem_takeWhile_imp hpassed
      rw [Nat.blt_eq] at hbelow
      rcases List.mem_cons.mp hrun with rfl | hrun
      · exact .inr (.inl hbelow)
      · exact .inr (.inl (Nat.lt_of_lt_of_le hbelow (hfirst run hrun)))
    · rcases List.mem_cons.mp hrun with rfl | hrun
      · rw [← List.takeWhile_append_dropWhile
          (p := fun other => other.first.ble (run.moved run.last))
          (l := others.dropWhile _)] at hleft
        rcases List.mem_append.mp hleft with hoverlap | habove
        · exact .inr (.inr (hnear other hoverlap))
        · exact .inl (lt_first_of_mem_dropWhile hascend habove)
      · exact ih hrest hascend hmissed run hrun other hleft

/-- What is asked of a table and of the code points that it sets apart: all its runs move letters to
letters, and to letters that it neither moves itself nor sets apart. -/
structure IsFinalTable (table : List CaseRun) (apart : List Nat) : Prop where
  letters : ∀ run ∈ table, ∀ n, run.holds n = true →
    letterCodes.contains n = true ∧ letterCodes.contains (run.moved n) = true
  moved : ∀ run ∈ table, ∀ n, run.holds n = true →
    ∀ other ∈ table, ¬ other.holds (run.moved n) = true
  apart : ∀ run ∈ table, ∀ n, run.holds n = true → run.moved n ∉ apart

theorem isFinalTable_of_passes (hstarts : ∀ run ∈ table, 0 < run.moved run.first)
    (hletters : covered (table.flatMap fun run => run.pieces id) letterCodes = true)
    (htargets : covered ((table.insertionSort AscendingTargets).flatMap fun run =>
      run.pieces run.moved) letterCodes = true)
    (hmissed : missed (table.insertionSort AscendingTargets)
      ((table ++ apart.map CaseRun.single).insertionSort AscendingRuns) = true) :
    IsFinalTable table apart := by
  have hmisses : ∀ run ∈ table, ∀ other ∈ table ++ apart.map CaseRun.single,
      run.Misses other := by
    have hsorted := misses_of_missed (List.pairwise_insertionSort _ _)
      (List.pairwise_insertionSort _ _) hmissed
    intro run hrun other hother
    exact hsorted run ((List.mem_insertionSort _).mpr hrun) other
      ((List.mem_insertionSort _).mpr hother)
  constructor
  case letters =>
    intro run hrun n hholds
    have hrun' := (List.mem_insertionSort AscendingTargets).mpr hrun
    obtain ⟨piece, hpiece, hn⟩ : ∃ piece ∈ run.pieces id, piece.1 ≤ n ∧ n ≤ piece.2 :=
      CaseRun.exists_piece (fun _ h => h) hholds
    obtain ⟨target, htarget, hmoved⟩ :=
      CaseRun.exists_piece (CaseRun.moved_le (hstarts run hrun)) hholds
    exact ⟨contains_of_covered hletters (List.mem_flatMap.mpr ⟨run, hrun, hpiece⟩) hn,
      contains_of_covered htargets (List.mem_flatMap.mpr ⟨run, hrun', htarget⟩) hmoved⟩
  case moved =>
    intro run hrun n hholds other hother
    exact CaseRun.not_holds_of_misses (hstarts run hrun)
      (hmisses run hrun other (List.mem_append_left _ hother)) hholds
  case apart =>
    intro run hrun n hholds hmem
    have hsingle := List.mem_append_right table (List.mem_map_of_mem (f := CaseRun.single) hmem)
    exact CaseRun.not_holds_of_misses (hstarts run hrun) (hmisses run hrun _ hsingle) hholds
      (CaseRun.holds_single _)

theorem shiftCase_cases (table : List CaseRun) (n : Nat) :
    shiftCase table n = n ∨
      ∃ run ∈ table, run.holds n = true ∧ shiftCase table n = run.moved n := by
  unfold shiftCase
  split
  · next run hrun =>
    have hholds := List.find?_some hrun
    exact .inr ⟨run, List.mem_of_find?_eq_some hrun, hholds, rfl⟩
  · exact .inl rfl

theorem shiftCase_of_not_holds (h : ∀ run ∈ table, ¬ run.holds n = true) :
    shiftCase table n = n := by
  rw [shiftCase, List.find?_eq_none.mpr h]

theorem shiftCase_cons (run : CaseRun) (table : List CaseRun) (n : Nat) :
    shiftCase (run :: table) n = if run.holds n = true then run.moved n else shiftCase table n := by
  rw [shiftCase, List.find?_cons]
  by_cases h : run.holds n = true
  · rw [h, if_pos rfl]
    rfl
  · rw [Bool.not_eq_true] at h
    rw [h]
    rfl

namespace IsFinalTable

theorem shiftCase_shiftCase (h : IsFinalTable table apart) (n : Nat) :
    shiftCase table (shiftCase table n) = shiftCase table n := by
  rcases shiftCase_cases table n with heq | ⟨run, hrun, hholds, heq⟩
  · rw [heq, heq]
  · rw [heq]
    exact shiftCase_of_not_holds (h.moved run hrun n hholds)

theorem shiftCase_notMem (h : IsFinalTable table apart) (hn : n ∉ apart) :
    shiftCase table n ∉ apart := by
  rcases shiftCase_cases table n with heq | ⟨run, hrun, hholds, heq⟩
  · rwa [heq]
  · rw [heq]
    exact h.apart run hrun n hholds

theorem contains_shiftCase (h : IsFinalTable table apart) (n : Nat) :
    letterCodes.contains (shiftCase table n) = letterCodes.contains n := by
  rcases shiftCase_cases table n with heq | ⟨run, hrun, hholds, heq⟩
  · rw [heq]
  · obtain ⟨hletter, hmoved⟩ := h.letters run hrun n hholds
    rw [heq, hletter, hmoved]

/-- What a character is moved to is a character. -/
theorem toNat_ofNat_shiftCase (h : IsFinalTable table apart) (c : Char) :
    (Char.ofNat (shiftCase table c.toNat)).toNat = shiftCase table c.toNat := by
  rcases shiftCase_cases table c.toNat with heq | ⟨run, hrun, hholds, heq⟩
  · rw [heq, Char.ofNat_toNat]
  · obtain ⟨-, hmoved⟩ := h.letters run hrun _ hholds
    rw [heq, Char.ofNat, dif_pos (isValidChar_of_contains hmoved)]
    rfl

end IsFinalTable

/-- The small letters of ASCII. -/
def asciiSmall : CaseRun := ⟨0x61, 0x7A, 1, -0x20⟩

/-- The capitals of ASCII. -/
def asciiCapitals : CaseRun := ⟨0x41, 0x5A, 1, 0x20⟩

/-- All runs for upper case. -/
def upperTable : List CaseRun := asciiSmall :: upperRuns

/-- All runs for lower case. -/
def lowerTable : List CaseRun := asciiCapitals :: lowerRuns

/-- The code points whose upper case is several characters. -/
def expandedCodes : List Nat :=
  upperExpansions.map Prod.fst

theorem isFinalTable_upper : IsFinalTable upperTable expandedCodes :=
  isFinalTable_of_passes (by decide +kernel) (by decide +kernel) (by decide +kernel)
    (by decide +kernel)

theorem isFinalTable_lower : IsFinalTable lowerTable [0x130] :=
  isFinalTable_of_passes (by decide +kernel) (by decide +kernel) (by decide +kernel)
    (by decide +kernel)

theorem shiftCase_cons_ascii (ascii : CaseRun) (h : ∀ run ∈ table, 0x80 ≤ run.first)
    (hn : n < 0x80) :
    shiftCase (ascii :: table) n = if ascii.holds n = true then ascii.moved n else n := by
  have hnone : ∀ run ∈ table, ¬ run.holds n = true := by
    intro run hrun hholds
    have hfirst := (CaseRun.holds_iff.mp hholds).1
    have houtside := h run hrun
    omega
  rw [shiftCase_cons, shiftCase_of_not_holds hnone]

theorem shiftCase_cons_outside {ascii : CaseRun} (h : ascii.last < 0x80) (hn : ¬ n < 0x80) :
    shiftCase (ascii :: table) n = shiftCase table n := by
  rw [shiftCase_cons, if_neg]
  intro hholds
  have hlast := (CaseRun.holds_iff.mp hholds).2.1
  omega

/-! ## Either case -/

theorem upper_eq (h : c.toNat ∉ expandedCodes) :
    upper c = [Char.ofNat (shiftCase upperTable c.toNat)] := by
  by_cases hascii : c.toNat < 0x80
  · have hall : ∀ n < 0x80, upper (Char.ofNat n) = [Char.ofNat
        (if asciiSmall.holds (Char.ofNat n).toNat = true then asciiSmall.moved (Char.ofNat n).toNat
        else (Char.ofNat n).toNat)] := by
      decide +kernel
    rw [upperTable, shiftCase_cons_ascii _ (by decide +kernel) hascii]
    exact ascii_forall (P := fun c => upper c = [Char.ofNat
      (if asciiSmall.holds c.toNat = true then asciiSmall.moved c.toNat else c.toNat)]) hall hascii
  · have hnone : upperExpansions.lookup c.toNat = none := by
      rw [List.lookup_eq_none_iff]
      intro entry hentry
      rw [bne_iff_ne]
      intro heq
      exact h (heq ▸ List.mem_map_of_mem hentry)
    rw [upper, if_neg hascii, hnone, upperTable, shiftCase_cons_outside (by decide) hascii]

theorem lower_eq (h : c.toNat ≠ 0x130) :
    lower c = [Char.ofNat (shiftCase lowerTable c.toNat)] := by
  by_cases hascii : c.toNat < 0x80
  · have hall : ∀ n < 0x80, lower (Char.ofNat n) = [Char.ofNat
        (if asciiCapitals.holds (Char.ofNat n).toNat = true then
          asciiCapitals.moved (Char.ofNat n).toNat else (Char.ofNat n).toNat)] := by
      decide +kernel
    rw [lowerTable, shiftCase_cons_ascii _ (by decide +kernel) hascii]
    exact ascii_forall (P := fun c => lower c = [Char.ofNat
      (if asciiCapitals.holds c.toNat = true then asciiCapitals.moved c.toNat else c.toNat)])
      hall hascii
  · rw [lower, if_neg hascii, if_neg h, lowerTable, shiftCase_cons_outside (by decide) hascii]

theorem upper_expanded (h : c.toNat ∈ expandedCodes) :
    1 < (upper c).length ∧ isLetter c = true := by
  have hall : ∀ n ∈ expandedCodes, 1 < (upper (Char.ofNat n)).length := by
    decide +kernel
  have hletters : covered (expandedCodes.map fun n => (n, n)) letterCodes = true := by
    decide +kernel
  have hchar := hall c.toNat h
  rw [Char.ofNat_toNat] at hchar
  rw [isLetter_eq]
  exact ⟨hchar, contains_of_covered hletters (List.mem_map_of_mem h)
    ⟨Nat.le_refl _, Nat.le_refl _⟩⟩

/-- **Upper case that is one character** is in upper case, and a letter just if the first one is. -/
theorem upper_final (h : upper c = [d]) : upper d = [d] ∧ isLetter d = isLetter c := by
  have hc : c.toNat ∉ expandedCodes := by
    intro hmem
    have hlong := (upper_expanded hmem).1
    rw [h] at hlong
    exact absurd hlong (Nat.lt_irrefl 1)
  rw [upper_eq hc, List.singleton_inj] at h
  have hd : d.toNat = shiftCase upperTable c.toNat := by
    rw [← h, isFinalTable_upper.toNat_ofNat_shiftCase]
  constructor
  · rw [upper_eq, hd, isFinalTable_upper.shiftCase_shiftCase, h]
    rw [hd]
    exact isFinalTable_upper.shiftCase_notMem hc
  · rw [isLetter_eq, isLetter_eq, hd, isFinalTable_upper.contains_shiftCase]

/-- Upper case is one character but for some letters, for which it is more. -/
theorem upper_cases (c : Char) :
    (∃ d, upper c = [d]) ∨ 1 < (upper c).length ∧ isLetter c = true := by
  by_cases h : c.toNat ∈ expandedCodes
  · exact .inr (upper_expanded h)
  · exact .inl ⟨_, upper_eq h⟩

/-- Lower case is one character but for the capital i with a dot. -/
theorem lower_cases (c : Char) : (∃ d, lower c = [d]) ∨ c = Char.ofNat 0x130 := by
  by_cases h : c.toNat = 0x130
  · exact .inr (eq_of_toNat_eq h)
  · exact .inl ⟨_, lower_eq h⟩

/-- **Lower case that is one character** is in lower case, and a letter just if the first one is. -/
theorem lower_final (h : lower c = [d]) : lower d = [d] ∧ isLetter d = isLetter c := by
  have hc : c.toNat ≠ 0x130 := by
    intro hdotted
    rw [eq_of_toNat_eq (d := Char.ofNat 0x130) hdotted] at h
    cases h
  rw [lower_eq hc, List.singleton_inj] at h
  have hd : d.toNat = shiftCase lowerTable c.toNat := by
    rw [← h, isFinalTable_lower.toNat_ofNat_shiftCase]
  constructor
  · rw [lower_eq, hd, isFinalTable_lower.shiftCase_shiftCase, h]
    rw [hd]
    exact fun heq => isFinalTable_lower.shiftCase_notMem (mt List.mem_singleton.mp hc)
      (List.mem_singleton.mpr heq)
  · rw [isLetter_eq, isLetter_eq, hd, isFinalTable_lower.contains_shiftCase]

end FileLore.Text
