import FileLore.Proofs.Pattern.WholeRun
import FileLore.Proofs.Text.LineEnd

/-!
# Patterns that do not tell line ends apart

Every place in a text with carriage returns belongs to a place in the text without
them (`erased`); the places before and behind a carriage return belong to the same
one. A pattern ignores carriage returns if reading it leads to the same places,
with the same preferences, whether they are taken away before or after
(`IgnoresReturns`).

A run of white space is where this can fail: between the two characters of a line
end it may stop at a place that the other text does not have. It does no harm if
what comes next reads nothing from there that it does not read from behind the line
feed as well (`IgnoresReturns.after_run`).
-/

namespace FileLore.Pattern

open Text

variable {pattern first second body : Pattern} {lead parts : List Pattern}
  {accepts : Char → Bool} {source text rest : List Char} {place start stop : Progress}
  {places others : List Progress} {step : Progress → List Progress}

/-! ## Lists with the same first results -/

theorem Agree.flatMap_congr {onward onward' : Progress → List Progress}
    (h : ∀ place ∈ places, Agree (onward place) (onward' place)) :
    Agree (places.flatMap onward) (places.flatMap onward') := by
  induction places with
  | nil => exact Agree.refl []
  | cons place places ih =>
    rw [List.flatMap_cons, List.flatMap_cons]
    refine (h place List.mem_cons_self).append (ih fun other hother => ?_)
    exact h other (List.mem_cons_of_mem _ hother)

/-- Places that are in a list already make no difference behind it. -/
theorem agree_append_of_subset (h : ∀ place ∈ others, place ∈ places) :
    Agree (places ++ others) places := by
  intro accept
  rw [List.findSome?_append]
  cases hfound : places.findSome? accept with
  | some found => rfl
  | none =>
    have hothers : others.findSome? accept = none := by
      rw [List.findSome?_eq_none_iff] at hfound ⊢
      exact fun place hplace => hfound place (h place hplace)
    rw [hothers]
    rfl

/-! ## Places without the carriage returns before them -/

/-- What an offset becomes when the carriage returns before it are taken away. -/
def erasedOffset (source : List Char) (offset : Nat) : Nat :=
  (withoutReturns (source.take offset)).length

/-- What a stretch becomes when the carriage returns are taken away. -/
def erasedSpan (source : List Char) (span : Span) : Span :=
  ⟨erasedOffset source span.start, erasedOffset source span.stop⟩

/-- What remembered stretches become when the carriage returns are taken away. -/
def erasedGroups (source : List Char) (groups : List (Nat × Span)) : List (Nat × Span) :=
  groups.map fun (index, span) => (index, erasedSpan source span)

/-- The place that a place in a text belongs to when the carriage returns are taken away. -/
def erased (source : List Char) (place : Progress) : Progress :=
  ⟨erasedOffset source place.offset, withoutReturns place.rest, erasedGroups source place.groups⟩

theorem erased_remember (source : List Char) (index : Nat) (start stop : Progress) :
    erased source (start.remember index stop) =
      (erased source start).remember index (erased source stop) := rfl

theorem erasedOffset_add (source : List Char) (offset count : Nat) :
    erasedOffset source (offset + count) = erasedOffset source offset +
      (withoutReturns ((source.drop offset).take count)).length := by
  rw [erasedOffset, List.take_add, withoutReturns_append, List.length_append]
  rfl

/-- A stretch that is read is read without its carriage returns. -/
theorem erased_moved (h : StandsIn source place) (hrest : place.rest = text ++ rest) :
    erased source (place.moved text.length rest) =
      (erased source place).moved (withoutReturns text).length (withoutReturns rest) := by
  have hoffset := erasedOffset_add source place.offset text.length
  rw [h, hrest, List.take_left] at hoffset
  show Progress.mk (erasedOffset source (place.offset + text.length)) _ _ = _
  rw [hoffset]
  rfl

/-- A run that carriage returns may belong to ends at the same place without them. -/
theorem erased_afterRun (h : StandsIn source place) (hreturn : accepts '\r' = true) :
    erased source (afterRun accepts place) = afterRun accepts (erased source place) := by
  have hmoved := erased_moved h (List.takeWhile_append_dropWhile (p := accepts)).symm
  rw [withoutReturns_takeWhile hreturn, withoutReturns_dropWhile hreturn] at hmoved
  exact hmoved

/-- The places before and behind a carriage return are the same without it. -/
theorem erased_return (h : StandsIn source place) (hrest : place.rest = '\r' :: rest) :
    erased source (place.moved 1 rest) = erased source place := by
  have hmoved := @erased_moved source ['\r'] rest place h hrest
  rw [List.length_singleton] at hmoved
  rw [hmoved, erased, hrest]
  rfl

theorem erased_next {c : Char} (h : StandsIn source place) (hrest : place.rest = c :: rest)
    (hc : c ≠ '\r') :
    erased source (place.moved 1 rest) = (erased source place).moved 1 (withoutReturns rest) := by
  have hmoved := @erased_moved source [c] rest place h hrest
  rw [withoutReturns_cons hc] at hmoved
  exact hmoved

theorem erased_rest {c : Char} (hrest : place.rest = c :: rest) (hc : c ≠ '\r') :
    (erased source place).rest = c :: withoutReturns rest := by
  rw [erased, hrest, withoutReturns_cons hc]

/-- Behind a carriage return a line feed comes next, in the text without it as well. -/
theorem erased_rest_return (hsource : ReturnsEndLines source) (h : StandsIn source place)
    (hrest : place.rest = '\r' :: rest) :
    ∃ more, rest = '\n' :: more ∧ (erased source place).rest = '\n' :: withoutReturns more := by
  obtain ⟨more, rfl⟩ := hsource rest (hrest ▸ h.suffix)
  refine ⟨more, rfl, ?_⟩
  rw [erased, hrest, withoutReturns_return, withoutReturns_cons (by decide)]

/-! ## Patterns -/

/-- Whether it makes no difference to the readings of the pattern if carriage returns before line
feeds are taken away before or after. -/
def IgnoresReturns (pattern : Pattern) : Prop :=
  ∀ (source : List Char) (place : Progress), ReturnsEndLines source → StandsIn source place →
    Agree ((pattern.readings place).map (erased source)) (pattern.readings (erased source place))

/-- Whether at a carriage return, if that makes a difference, the pattern reads just it. -/
def PassesReturns (pattern : Pattern) : Prop :=
  ∀ (source : List Char) (place : Progress), ReturnsEndLines source → StandsIn source place →
    (∃ rest, place.rest = '\r' :: rest ∧ pattern.readings place = [place.moved 1 rest]) ∨
      Agree ((pattern.readings place).map (erased source)) (pattern.readings (erased source place))

theorem readings_one_nil (hrest : place.rest = []) : (one accepts).readings place = [] := by
  rw [readings, readOne, hrest]

theorem readings_one_cons {c : Char} (hrest : place.rest = c :: rest) :
    (one accepts).readings place = if accepts c then [place.moved 1 rest] else [] := by
  rw [readings, readOne, hrest]

/-- Away from carriage returns a single character is read alike. -/
theorem readings_one_erased (h : StandsIn source place) (hhead : place.rest.head? ≠ some '\r') :
    ((one accepts).readings place).map (erased source) =
      (one accepts).readings (erased source place) := by
  cases hrest : place.rest with
  | nil =>
    have hnone : (erased source place).rest = [] := by rw [erased, hrest, withoutReturns_nil]
    rw [readings_one_nil hrest, readings_one_nil hnone]
    rfl
  | cons c rest =>
    have hc : c ≠ '\r' := fun heq => hhead (by rw [hrest, heq]; rfl)
    rw [readings_one_cons hrest, readings_one_cons (erased_rest hrest hc)]
    split
    · rw [List.map_singleton, erased_next h hrest hc]
    · rfl

theorem passesReturns_one (h : accepts '\r' = accepts '\n') : PassesReturns (one accepts) := by
  intro source place hsource hplace
  by_cases hhead : place.rest.head? = some '\r'
  · obtain ⟨rest, hrest⟩ := List.head?_eq_some_iff.mp hhead
    by_cases hreturn : accepts '\r' = true
    · refine .inl ⟨rest, hrest, ?_⟩
      rw [readings_one_cons hrest, if_pos hreturn]
    · obtain ⟨more, -, hmore⟩ := erased_rest_return hsource hplace hrest
      right
      rw [readings_one_cons hrest, readings_one_cons hmore, ← h, if_neg hreturn, if_neg hreturn]
      exact Agree.refl []
  · right
    rw [readings_one_erased hplace hhead]
    exact Agree.refl _

theorem ignoresReturns_empty : IgnoresReturns empty := fun _ _ _ _ => Agree.refl _

/-- Characters of a kind with neither of the two that lines end in. -/
theorem ignoresReturns_one (hreturn : accepts '\r' = false) (hfeed : accepts '\n' = false) :
    IgnoresReturns (one accepts) := by
  intro source place hsource hplace
  rcases passesReturns_one (hreturn.trans hfeed.symm) source place hsource hplace with
    ⟨rest, hrest, hreadings⟩ | hagree
  · rw [readings_one_cons hrest, hreturn] at hreadings
    cases hreadings
  · exact hagree

theorem IgnoresReturns.either (h : IgnoresReturns first) (h' : IgnoresReturns second) :
    IgnoresReturns (either first second) := by
  intro source place hsource hplace
  rw [readings, readings, List.map_append]
  exact (h source place hsource hplace).append (h' source place hsource hplace)

theorem IgnoresReturns.optional (h : IgnoresReturns body) : IgnoresReturns (optional body) :=
  h.either ignoresReturns_empty

/-- A pattern that cannot be read at a carriage return may be preferred to one that passes it. -/
theorem PassesReturns.either (h : PassesReturns second) (hfirst : IgnoresReturns first)
    (hrefuses : ∀ rest, first.Refuses ('\r' :: rest)) :
    PassesReturns (Pattern.either first second) := by
  intro source place hsource hplace
  rw [readings, readings]
  rcases h source place hsource hplace with ⟨rest, hrest, hreadings⟩ | hagree
  · refine .inl ⟨rest, hrest, ?_⟩
    obtain ⟨offset, text, groups⟩ := place
    obtain rfl : text = '\r' :: rest := hrest
    rw [hrefuses rest offset groups, hreadings, List.nil_append]
  · right
    rw [List.map_append]
    exact (hfirst source place hsource hplace).append hagree

theorem IgnoresReturns.group (h : IgnoresReturns body) (index : Nat) :
    IgnoresReturns (group index body) := by
  intro source place hsource hplace
  have hmap := (h source place hsource hplace).map ((erased source place).remember index)
  rw [List.map_map] at hmap
  rw [readings, readings, List.map_map]
  exact hmap

/-- Readings one after the other lead to the same places if both do. -/
theorem agree_flatMap_erased {onward : Progress → List Progress}
    (h : Agree (places.map (erased source)) others)
    (honward : ∀ place ∈ places, Agree ((onward place).map (erased source))
      (onward (erased source place))) :
    Agree ((places.flatMap onward).map (erased source)) (others.flatMap onward) := by
  rw [List.map_flatMap]
  refine (Agree.flatMap_congr honward).trans ?_
  rw [← List.flatMap_map]
  exact h.flatMap fun place => Agree.refl (onward place)

theorem IgnoresReturns.cons (h : IgnoresReturns first) (hholds : first.roundsHoldNoGroup = true)
    (hparts : IgnoresReturns (sequence parts)) : IgnoresReturns (sequence (first :: parts)) := by
  intro source place hsource hplace
  rw [readings_sequence_cons, readings_sequence_cons]
  exact agree_flatMap_erased (h source place hsource hplace) fun mid hmid =>
    hparts source mid hsource (hplace.mem_readings hholds hmid)

theorem IgnoresReturns.seq (h : IgnoresReturns first) (hholds : first.roundsHoldNoGroup = true)
    (h' : IgnoresReturns second) : IgnoresReturns (seq first second) :=
  @IgnoresReturns.cons first [second] h hholds h'

/-- What may be read before the parts of a sequence can be put in front of them. -/
theorem IgnoresReturns.optional_cons (hlead : IgnoresReturns (sequence (lead ++ parts)))
    (hparts : IgnoresReturns (sequence parts)) :
    IgnoresReturns (sequence (Pattern.optional (sequence lead) :: parts)) := by
  have hreadings (place : Progress) :
      (sequence (Pattern.optional (sequence lead) :: parts)).readings place =
        (sequence (lead ++ parts)).readings place ++ (sequence parts).readings place := by
    rw [readings_sequence_cons, readings_sequence_append]
    show ((sequence lead).readings place ++ [place]).flatMap _ = _
    rw [List.flatMap_append, List.flatMap_singleton]
  intro source place hsource hplace
  rw [hreadings, hreadings, List.map_append]
  exact (hlead source place hsource hplace).append (hparts source place hsource hplace)

/-! ## Words -/

/-- Whether a word holds neither of the characters that lines end in. -/
def OnOneLine (word : String) : Prop := '\r' ∉ word.toList ∧ '\n' ∉ word.toList

instance (word : String) : Decidable (OnOneLine word) :=
  inferInstanceAs (Decidable (_ ∧ _))

theorem ignoresReturns_literal {word : String} (h : OnOneLine word) :
    IgnoresReturns (literal word) := by
  obtain ⟨hreturn, hfeed⟩ := h
  unfold literal
  generalize word.toList = chars at hreturn hfeed ⊢
  induction chars with
  | nil => exact ignoresReturns_empty
  | cons c chars ih =>
    rw [List.mem_cons, not_or] at hreturn hfeed
    have hone : IgnoresReturns (one (· == c)) :=
      ignoresReturns_one (beq_eq_false_iff_ne.mpr hreturn.1) (beq_eq_false_iff_ne.mpr hfeed.1)
    exact hone.cons rfl (ih hreturn.2 hfeed.2)

theorem ignoresReturns_choice {words : List String} (h : ∀ word ∈ words, OnOneLine word) :
    IgnoresReturns (choice (words.map literal)) := by
  induction words with
  | nil => exact ignoresReturns_one rfl rfl
  | cons word words ih =>
    have hword := ignoresReturns_literal (h word List.mem_cons_self)
    cases words with
    | nil => exact hword
    | cons other words =>
      exact hword.either (ih fun later hlater => h later (List.mem_cons_of_mem word hlater))

/-! ## Repetitions -/

theorem length_lt_of_mem_readings (hholds : body.roundsHoldNoGroup = true)
    (hreads : body.readsAlways = true) :
    ∀ place, ∀ next ∈ body.readings place, next.rest.length < place.rest.length := by
  intro place next hnext
  have hread := (mem_readings hholds).mp hnext
  have hoffset := hread.offset_lt hreads
  have hlength := hread.ahead.length
  omega

theorem again_of_less (hless : ∀ place, ∀ next ∈ step place, next.rest.length < place.rest.length)
    (place : Progress) :
    again .more step place = (step place).flatMap (again .more step) ++ [place] := by
  rw [again_more, onward]
  congr 1
  exact List.flatMap_congr fun next hnext => if_pos (hless place next hnext)

/-- A run is read by reading one character and then the rest of it, or not at all. -/
theorem readings_many (accepts : Char → Bool) (place : Progress) :
    (many accepts).readings place =
      ((one accepts).readings place).flatMap (many accepts).readings ++ [place] :=
  again_of_less (@length_lt_of_mem_readings (one accepts) rfl rfl) place

/-- Passing carriage returns again and again, among others, leads to the same places. -/
theorem PassesReturns.again (h : PassesReturns body) (hholds : body.roundsHoldNoGroup = true)
    (hreads : body.readsAlways = true) (hsource : ReturnsEndLines source) :
    StandsIn source place → Agree ((again .more body.readings place).map (erased source))
      (again .more body.readings (erased source place)) := by
  have hless := length_lt_of_mem_readings hholds hreads
  induction hn : place.rest.length using Nat.strongRecOn generalizing place with
  | ind n ih =>
    subst hn
    intro hplace
    rw [again_of_less hless place]
    rcases h source place hsource hplace with ⟨rest, hrest, hreadings⟩ | hagree
    · -- The place before the carriage return belongs to the one behind it, which comes first.
      have hnext := ih _ (hless place _ (hreadings ▸ List.mem_singleton_self _)) rfl
        (hplace.mem_readings hholds (hreadings ▸ List.mem_singleton_self _))
      rw [erased_return hplace hrest] at hnext
      rw [hreadings, List.flatMap_singleton, List.map_append, List.map_singleton]
      refine (hnext.append (Agree.refl _)).trans (agree_append_of_subset fun other hother => ?_)
      rw [List.mem_singleton.mp hother]
      exact self_mem_again
    · rw [again_of_less hless (erased source place), List.map_append]
      refine (agree_flatMap_erased hagree fun next hnext => ?_).append (Agree.refl _)
      exact ih _ (hless place next hnext) rfl (hplace.mem_readings hholds hnext)

theorem ignoresReturns_many (h : accepts '\r' = accepts '\n') : IgnoresReturns (many accepts) :=
  fun _ _ hsource hplace => (passesReturns_one h).again rfl rfl hsource hplace

theorem IgnoresReturns.repeated (h : PassesReturns body) (hholds : body.holdsNoGroup = true)
    (hreads : body.readsAlways = true) : IgnoresReturns (repeated body) := by
  have hrounds := roundsHoldNoGroup_of_holdsNoGroup hholds
  have hless := length_lt_of_mem_readings hrounds hreads
  have hreadings (place : Progress) :
      (Pattern.repeated body).readings place = Pattern.again .more body.readings place := by
    rw [again_of_less hless]
    show (rounds .more body).readings place ++ [place] = _
    rw [readings]
    congr 1
    exact List.flatMap_congr fun next hnext => if_pos (hless place next hnext)
  intro source place hsource hplace
  rw [hreadings, hreadings]
  exact h.again hrounds hreads hsource hplace

/-! ## Runs -/

/-- Whether all that the pattern reads from before a character of a kind it also reads from behind
it. -/
def AbsorbsRun (accepts : Char → Bool) (pattern : Pattern) : Prop :=
  ∀ (place : Progress) (c : Char) (rest : List Char), place.rest = c :: rest → accepts c = true →
    ∀ stop ∈ pattern.readings place, stop ∈ pattern.readings (place.moved 1 rest)

theorem FollowsRun.readings_nil (h : FollowsRun accepts pattern)
    (hholds : pattern.roundsHoldNoGroup = true) {c : Char} (hrest : place.rest = c :: rest)
    (hc : accepts c = true) : pattern.readings place = [] := by
  rw [List.eq_nil_iff_forall_not_mem]
  intro stop hstop
  have hend := h place stop ((mem_readings hholds).mp hstop)
  rw [hrest, endsRun_cons, hc] at hend
  cases hend

theorem FollowsRun.absorbs (h : FollowsRun accepts pattern)
    (hholds : pattern.roundsHoldNoGroup = true) : AbsorbsRun accepts pattern := by
  intro place c rest hrest hc stop hstop
  rw [h.readings_nil hholds hrest hc] at hstop
  cases hstop

theorem FollowsRun.group (h : FollowsRun accepts body) (index : Nat) :
    FollowsRun accepts (group index body) := by
  rintro start stop ⟨mid, hread, -⟩
  exact h start mid hread

/-- A run that goes on with more of its kind, before something that ends it. -/
theorem absorbsRun_many_cons (h : FollowsRun accepts (sequence parts))
    (hholds : (sequence parts).roundsHoldNoGroup = true) :
    AbsorbsRun accepts (sequence (many accepts :: parts)) := by
  intro place c rest hrest hc stop hstop
  rw [readings_sequence_cons, List.mem_flatMap] at hstop ⊢
  obtain ⟨mid, hmid, hparts⟩ := hstop
  refine ⟨mid, ?_, hparts⟩
  obtain ⟨run, after, hsplit, hrun, rfl⟩ := mem_again_readOne.mp hmid
  cases run with
  | nil =>
    -- What ends the run does not stand where the run goes on.
    rw [h.readings_nil hholds (hsplit.symm.trans hrest) hc] at hparts
    cases hparts
  | cons d run =>
    rw [hrest, List.cons_append] at hsplit
    obtain ⟨rfl, rfl⟩ := List.cons.inj hsplit
    refine mem_again_readOne.mpr ⟨run, after, rfl, fun e he => ?_, ?_⟩
    · exact hrun e (List.mem_cons_of_mem _ he)
    · rw [Progress.moved, Progress.moved, Progress.moved, List.length_cons, Nat.add_assoc,
        Nat.add_comm 1]

/-- What cannot be read where a run goes on may be read before something that absorbs it. -/
theorem AbsorbsRun.optional_cons (h : AbsorbsRun accepts (sequence parts))
    (hbody : FollowsRun accepts body) (hholds : body.roundsHoldNoGroup = true) :
    AbsorbsRun accepts (sequence (optional body :: parts)) := by
  have hreadings (place : Progress) : (sequence (optional body :: parts)).readings place =
      (body.readings place).flatMap (sequence parts).readings ++
        (sequence parts).readings place := by
    rw [readings_sequence_cons]
    show (body.readings place ++ [place]).flatMap _ = _
    rw [List.flatMap_append, List.flatMap_singleton]
  intro place c rest hrest hc stop hstop
  rw [hreadings, hbody.readings_nil hholds hrest hc, List.flatMap_nil, List.nil_append] at hstop
  rw [hreadings]
  exact List.mem_append_right _ (h place c rest hrest hc stop hstop)

/-- **A run that line ends belong to ignores carriage returns** in front of what absorbs it. -/
theorem IgnoresReturns.after_run (hparts : IgnoresReturns (sequence parts))
    (habsorbs : AbsorbsRun accepts (sequence parts)) (hreturn : accepts '\r' = true)
    (hfeed : accepts '\n' = true) : IgnoresReturns (sequence (oneOrMore accepts :: parts)) := by
  have hrun : IgnoresReturns (sequence (many accepts :: parts)) :=
    (ignoresReturns_many (hreturn.trans hfeed.symm)).cons rfl hparts
  have hreadings (place : Progress) : (sequence (oneOrMore accepts :: parts)).readings place =
      ((one accepts).readings place).flatMap (sequence (many accepts :: parts)).readings := by
    rw [readings_sequence_cons]
    show ((readOne accepts place).flatMap (many accepts).readings).flatMap _ = _
    rw [List.flatMap_assoc]
    exact List.flatMap_congr fun next _ => (readings_sequence_cons _ _ next).symm
  intro source place hsource hplace
  rw [hreadings, hreadings]
  by_cases hhead : place.rest.head? = some '\r'
  · obtain ⟨rest, hrest⟩ := List.head?_eq_some_iff.mp hhead
    obtain ⟨more, rfl, hmore⟩ := erased_rest_return hsource hplace hrest
    let between := place.moved 1 ('\n' :: more)
    let behind := between.moved 1 more
    have hbetween : StandsIn source between := hplace.ahead (@ahead_moved place ['\r'] _ hrest)
    have hbehind : StandsIn source behind := hbetween.ahead (@ahead_moved between ['\n'] _ rfl)
    have herased : (erased source place).moved 1 (withoutReturns more) = erased source behind := by
      rw [erased_next hbetween rfl (by decide), erased_return hplace hrest]
    have hagain :
        (many accepts).readings between = (many accepts).readings behind ++ [between] := by
      have hstep : readOne accepts between = [behind] := if_pos hfeed
      have hless : behind.rest.length < between.rest.length := Nat.lt_succ_self _
      rw [readings, again_more, onward, hstep, List.flatMap_singleton, if_pos hless, readings]
    rw [readings_one_cons hrest, readings_one_cons hmore, if_pos hreturn, if_pos hfeed,
      List.flatMap_singleton, List.flatMap_singleton, herased, readings_sequence_cons _ _ between,
      hagain, List.flatMap_append, ← readings_sequence_cons, List.flatMap_singleton,
      List.map_append]
    -- What is read from between the two characters is read from behind them as well.
    refine (agree_append_of_subset fun stop hstop => ?_).trans (hrun source behind hsource hbehind)
    obtain ⟨reached, hreached, rfl⟩ := List.mem_map.mp hstop
    refine List.mem_map_of_mem ?_
    rw [readings_sequence_cons]
    exact List.mem_flatMap.mpr ⟨behind, self_mem_again,
      habsorbs between '\n' more rfl hfeed reached hreached⟩
  · refine agree_flatMap_erased ?_ fun next hnext => hrun source next hsource
      (hplace.mem_readings rfl hnext)
    rw [readings_one_erased hplace hhead]
    exact Agree.refl _

end FileLore.Pattern
