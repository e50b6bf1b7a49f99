import FileLore.Pattern.Search
import Mathlib.Logic.Relation

/-!
# What a pattern reads

The meaning of patterns in two steps, each without any regard to how a reading is
found. `Reads` says from where to where a pattern can read a text, constructor by
constructor; a repetition is the transitive closure of what it repeats.
`readings` lists what can be read from one place in order of preference, the way
a backtracking search goes through it: what comes earlier in a sequence decides
before what comes later, the first of two alternatives goes before the second,
and a repetition is unrolled round by round, the rounds after the first reading
something each (`again`).

The main statement is that the list has all readings and nothing else
(`mem_readings`). A round that reads nothing leads back to where it started only
if it remembers nothing, so patterns in which a repetition holds a group are left
out.
-/

namespace FileLore.Pattern

open Relation (ReflTransGen TransGen)

variable {place start mid stop : Progress} {pattern body : Pattern} {preference : Preference}
  {step : Progress → List Progress}

/-! ## From where to where -/

/-- Whether the pattern can read from one place to another. -/
def Reads : Pattern → Progress → Progress → Prop
  | empty, start, stop => stop = start
  | one accepts, start, stop =>
    ∃ c rest, start.rest = c :: rest ∧ accepts c = true ∧ stop = start.moved 1 rest
  | many accepts, start, stop | few accepts, start, stop =>
    ∃ text rest, start.rest = text ++ rest ∧ (∀ c ∈ text, accepts c = true) ∧
      stop = start.moved text.length rest
  | seq first second, start, stop => ∃ mid, first.Reads start mid ∧ second.Reads mid stop
  | either first second, start, stop => first.Reads start stop ∨ second.Reads start stop
  | rounds _ body, start, stop => TransGen body.Reads start stop
  | group index body, start, stop =>
    ∃ mid, body.Reads start mid ∧ stop = start.remember index mid
  | check holds, start, stop => holds start.offset start.rest = true ∧ stop = start

/-- Whether `stop` lies in the same text at `start` or after it. -/
def Ahead (start stop : Progress) : Prop :=
  ∃ read ≤ start.rest.length, stop.offset = start.offset + read ∧ stop.rest = start.rest.drop read

theorem Ahead.refl (place : Progress) : Ahead place place := ⟨0, Nat.zero_le _, rfl, rfl⟩

theorem Ahead.trans (h : Ahead start mid) (h' : Ahead mid stop) : Ahead start stop := by
  obtain ⟨read, hle, hoffset, hrest⟩ := h
  obtain ⟨more, hle', hoffset', hrest'⟩ := h'
  rw [hrest, List.length_drop] at hle'
  refine ⟨read + more, by omega, by omega, ?_⟩
  rw [hrest', hrest, List.drop_drop]

theorem Ahead.length (h : Ahead start stop) :
    stop.offset + stop.rest.length = start.offset + start.rest.length := by
  obtain ⟨read, hle, hoffset, hrest⟩ := h
  rw [hoffset, hrest, List.length_drop]
  omega

theorem ahead_moved {text rest : List Char} (h : start.rest = text ++ rest) :
    Ahead start (start.moved text.length rest) := by
  refine ⟨text.length, by rw [h, List.length_append]; omega, rfl, ?_⟩
  rw [h, List.drop_left]
  rfl

/-- Patterns read forward. -/
theorem Reads.ahead : ∀ {pattern : Pattern} {start stop : Progress},
    pattern.Reads start stop → Ahead start stop := by
  intro pattern
  induction pattern with
  | empty =>
    intro start stop hread
    subst hread
    exact Ahead.refl _
  | one accepts =>
    intro start stop hread
    obtain ⟨c, rest, hrest, -, rfl⟩ := hread
    exact @ahead_moved start [c] rest hrest
  | many accepts =>
    intro start stop hread
    obtain ⟨text, rest, hrest, -, rfl⟩ := hread
    exact ahead_moved hrest
  | few accepts =>
    intro start stop hread
    obtain ⟨text, rest, hrest, -, rfl⟩ := hread
    exact ahead_moved hrest
  | seq first second ihFirst ihSecond =>
    intro start stop hread
    obtain ⟨mid, hfirst, hsecond⟩ := hread
    exact (ihFirst hfirst).trans (ihSecond hsecond)
  | either first second ihFirst ihSecond =>
    intro start stop hread
    rcases hread with hfirst | hsecond
    · exact ihFirst hfirst
    · exact ihSecond hsecond
  | rounds preference body ih =>
    intro start stop h
    induction h with
    | single h => exact ih h
    | tail _ h ih' => exact ih'.trans (ih h)
  | group index body ih =>
    intro start stop hread
    obtain ⟨mid, hmid, rfl⟩ := hread
    have hahead := ih hmid
    exact hahead
  | check holds =>
    intro start stop hread
    obtain ⟨-, rfl⟩ := hread
    exact Ahead.refl _

/-! ## Patterns that remember nothing -/

/-- Whether no part of the pattern is remembered. -/
def holdsNoGroup : Pattern → Bool
  | group _ _ => false
  | seq first second | either first second => first.holdsNoGroup && second.holdsNoGroup
  | rounds _ body => body.holdsNoGroup
  | _ => true

/-- Whether nothing is remembered within a repetition. -/
def roundsHoldNoGroup : Pattern → Bool
  | rounds _ body => body.holdsNoGroup
  | seq first second | either first second => first.roundsHoldNoGroup && second.roundsHoldNoGroup
  | group _ body => body.roundsHoldNoGroup
  | _ => true

theorem roundsHoldNoGroup_of_holdsNoGroup :
    ∀ {pattern : Pattern}, pattern.holdsNoGroup = true → pattern.roundsHoldNoGroup = true := by
  intro pattern
  induction pattern with
  | seq first second ihFirst ihSecond | either first second ihFirst ihSecond =>
    intro h
    rw [holdsNoGroup, Bool.and_eq_true] at h
    rw [roundsHoldNoGroup, ihFirst h.1, ihSecond h.2]
    rfl
  | rounds preference body _ => exact id
  | group index body _ =>
    intro h
    cases h
  | _ => exact fun _ => rfl

/-- A pattern without groups remembers nothing. -/
theorem Reads.groups_eq : ∀ {pattern : Pattern} {start stop : Progress},
    pattern.holdsNoGroup = true → pattern.Reads start stop → stop.groups = start.groups := by
  intro pattern
  induction pattern with
  | empty =>
    intro start stop _ hread
    subst hread
    rfl
  | one accepts =>
    intro start stop _ hread
    obtain ⟨c, rest, -, -, rfl⟩ := hread
    rfl
  | many accepts =>
    intro start stop _ hread
    obtain ⟨text, rest, -, -, rfl⟩ := hread
    rfl
  | few accepts =>
    intro start stop _ hread
    obtain ⟨text, rest, -, -, rfl⟩ := hread
    rfl
  | seq first second ihFirst ihSecond =>
    intro start stop h hread
    obtain ⟨mid, hfirst, hsecond⟩ := hread
    rw [holdsNoGroup, Bool.and_eq_true] at h
    rw [ihSecond h.2 hsecond, ihFirst h.1 hfirst]
  | either first second ihFirst ihSecond =>
    intro start stop h hreads
    rw [holdsNoGroup, Bool.and_eq_true] at h
    rcases hreads with hfirst | hsecond
    · exact ihFirst h.1 hfirst
    · exact ihSecond h.2 hsecond
  | rounds preference body ih =>
    intro start stop h hreads
    induction hreads with
    | single hstep => exact ih h hstep
    | tail _ hstep ih' => rw [ih h hstep, ih']
  | group index body _ =>
    intro start stop h
    cases h
  | check holds =>
    intro start stop _ hread
    obtain ⟨-, rfl⟩ := hread
    rfl

/-- What is read without being remembered is told by its length. -/
theorem Reads.eq_of_offset (hgroup : pattern.holdsNoGroup = true) (h : pattern.Reads start stop)
    (hoffset : stop.offset = start.offset) : stop = start := by
  obtain ⟨read, -, hread, hrest⟩ := h.ahead
  have hgroups := h.groups_eq hgroup
  obtain rfl : read = 0 := by omega
  obtain ⟨offset, rest, groups⟩ := stop
  rw [Progress.mk.injEq]
  exact ⟨hoffset, hrest, hgroups⟩

/-! ## In order of preference -/

/-- The place after reading one character of a kind. -/
def readOne (accepts : Char → Bool) (place : Progress) : List Progress :=
  match place.rest with
  | [] => []
  | c :: rest => if accepts c then [place.moved 1 rest] else []

/-- The places reached by zero or more steps that each read something, in order of preference: all
that goes on from a place stands before it or after it. -/
def again (preference : Preference) (step : Progress → List Progress) (place : Progress) :
    List Progress :=
  let onward := (step place).flatMap fun next =>
    if _h : next.rest.length < place.rest.length then again preference step next else []
  match preference with
  | .more => onward ++ [place]
  | .fewer => place :: onward
termination_by place.rest.length

/-- All readings of the pattern from one place, the preferred ones first. -/
def readings : Pattern → Progress → List Progress
  | empty, place => [place]
  | one accepts, place => readOne accepts place
  | many accepts, place => again .more (readOne accepts) place
  | few accepts, place => again .fewer (readOne accepts) place
  | seq first second, place => (first.readings place).flatMap second.readings
  | either first second, place => first.readings place ++ second.readings place
  | rounds preference body, place =>
    (body.readings place).flatMap fun next =>
      if next.rest.length < place.rest.length then again preference body.readings next else [next]
  | group index body, place => (body.readings place).map (place.remember index)
  | check holds, place => if holds place.offset place.rest then [place] else []

theorem mem_readOne {accepts : Char → Bool} :
    stop ∈ readOne accepts start ↔ (one accepts).Reads start stop := by
  unfold readOne
  rw [Reads]
  cases hrest : start.rest with
  | nil => simp
  | cons c rest =>
    dsimp only
    constructor
    · intro h
      by_cases hc : accepts c = true
      · rw [if_pos hc, List.mem_singleton] at h
        exact ⟨c, rest, rfl, hc, h⟩
      · rw [if_neg hc] at h
        cases h
    · intro hmem
      obtain ⟨c, rest, hcons, hc, rfl⟩ := hmem
      cases hcons
      rw [if_pos hc]
      exact List.mem_singleton_self _

/-- What is reached from a place by a first step that reads something. -/
def onward (preference : Preference) (step : Progress → List Progress) (place : Progress) :
    List Progress :=
  (step place).flatMap fun next =>
    if next.rest.length < place.rest.length then again preference step next else []

theorem again_more (step : Progress → List Progress) (place : Progress) :
    again .more step place = onward .more step place ++ [place] := by
  rw [again, onward]
  rfl

theorem again_fewer (step : Progress → List Progress) (place : Progress) :
    again .fewer step place = place :: onward .fewer step place := by
  rw [again, onward]
  rfl

theorem mem_onward : stop ∈ onward preference step start ↔
    ∃ mid ∈ step start, mid.rest.length < start.rest.length ∧
      stop ∈ again preference step mid := by
  rw [onward, List.mem_flatMap]
  refine exists_congr fun mid => and_congr_right fun _ => ?_
  by_cases h : mid.rest.length < start.rest.length
  · simp [h]
  · simp [h]

/-- What goes on from a place is reached by a step and what goes on from there, or is the place. -/
theorem mem_again_iff : stop ∈ again preference step start ↔
    stop = start ∨ ∃ mid ∈ step start, mid.rest.length < start.rest.length ∧
      stop ∈ again preference step mid := by
  rw [← mem_onward]
  cases preference with
  | more => rw [again_more, List.mem_append, List.mem_singleton, or_comm]
  | fewer => rw [again_fewer, List.mem_cons]

theorem mem_again : stop ∈ again preference step start ↔
    ReflTransGen (fun here next => next ∈ step here ∧ next.rest.length < here.rest.length)
      start stop := by
  induction hn : start.rest.length using Nat.strongRecOn generalizing start with
  | ind n ih =>
    subst hn
    rw [mem_again_iff, ReflTransGen.cases_head_iff]
    refine or_congr eq_comm (exists_congr fun mid => ?_)
    constructor
    · intro hmem
      obtain ⟨hstep, hless, hmid⟩ := hmem
      exact ⟨⟨hstep, hless⟩, (ih _ hless rfl).mp hmid⟩
    · intro hmem
      obtain ⟨⟨hstep, hless⟩, hmid⟩ := hmem
      exact ⟨hstep, hless, (ih _ hless rfl).mpr hmid⟩

theorem self_mem_again : place ∈ again preference step place :=
  mem_again.mpr ReflTransGen.refl

theorem again_trans (h : mid ∈ again preference step start) (h' : stop ∈ again preference step mid) :
    stop ∈ again preference step start :=
  mem_again.mpr ((mem_again.mp h).trans (mem_again.mp h'))

/-- Reading characters of a kind one by one reads stretches of such characters. -/
theorem mem_again_readOne {accepts : Char → Bool} :
    stop ∈ again preference (readOne accepts) start ↔ (many accepts).Reads start stop := by
  -- Steps that read something leave less to read, which is what the induction is on.
  induction hn : start.rest.length using Nat.strongRecOn generalizing start with
  | ind n ih =>
    subst hn
    rw [mem_again_iff]
    constructor
    · intro hmem
      rcases hmem with rfl | ⟨mid, hmid, hless, hstop⟩
      · exact ⟨[], stop.rest, rfl, fun _ h => absurd h List.not_mem_nil, rfl⟩
      · obtain ⟨text, rest, hrest, hall, rfl⟩ := (ih _ hless rfl).mp hstop
        obtain ⟨c, others, hstart, hc, rfl⟩ := mem_readOne.mp hmid
        have hsplit : others = text ++ rest := hrest
        refine ⟨c :: text, rest, by rw [hstart, hsplit]; rfl, ?_, ?_⟩
        · intro d hd
          rcases List.mem_cons.mp hd with rfl | hd
          · exact hc
          · exact hall d hd
        · rw [Progress.moved, Progress.moved, Progress.moved, List.length_cons, Nat.add_assoc,
            Nat.add_comm 1]
    · intro hmem
      obtain ⟨text, rest, hrest, hall, rfl⟩ := hmem
      cases text with
      | nil =>
        left
        rw [List.nil_append] at hrest
        rw [← hrest]
        rfl
      | cons c text =>
        right
        have hless : (start.moved 1 (text ++ rest)).rest.length < start.rest.length := by
          rw [hrest]
          exact Nat.lt_succ_self _
        refine ⟨_, mem_readOne.mpr ⟨c, text ++ rest, hrest, hall c (List.mem_cons_self ..), rfl⟩,
          hless, (ih _ hless rfl).mpr ⟨text, rest, rfl, fun d hd =>
            hall d (List.mem_cons_of_mem _ hd), ?_⟩⟩
        rw [Progress.moved, Progress.moved, Progress.moved, List.length_cons, Nat.add_assoc,
          Nat.add_comm 1]

/-- A round that does not read anything leads back to where it started. -/
theorem Reads.length_lt_or_eq (hgroup : body.holdsNoGroup = true) (h : body.Reads start stop) :
    stop.rest.length < start.rest.length ∨ stop = start := by
  by_cases hless : stop.rest.length < start.rest.length
  · exact Or.inl hless
  · have hlength := h.ahead.length
    have hoffset : start.offset ≤ stop.offset := by
      obtain ⟨read, -, hread, -⟩ := h.ahead
      omega
    exact Or.inr (h.eq_of_offset hgroup (by omega))

/-- Rounds that do not read anything can be left out. -/
theorem mem_again_of_reads (hgroup : body.holdsNoGroup = true)
    (hmem : ∀ {start stop : Progress}, stop ∈ body.readings start ↔ body.Reads start stop)
    (h : ReflTransGen body.Reads start stop) : stop ∈ again preference body.readings start := by
  induction h using ReflTransGen.head_induction_on with
  | refl => exact self_mem_again
  | head hround _ ih =>
    rcases hround.length_lt_or_eq hgroup with hless | rfl
    · exact mem_again_iff.mpr (Or.inr ⟨_, hmem.mpr hround, hless, ih⟩)
    · exact ih

theorem mem_rounds (hgroup : body.holdsNoGroup = true)
    (hmem : ∀ {start stop : Progress}, stop ∈ body.readings start ↔ body.Reads start stop) :
    stop ∈ (rounds preference body).readings start ↔ TransGen body.Reads start stop := by
  rw [readings, List.mem_flatMap]
  constructor
  · intro hmem
    obtain ⟨mid, hmid, hstop⟩ := hmem
    by_cases hless : mid.rest.length < start.rest.length
    · rw [if_pos hless] at hstop
      refine TransGen.head' (hmem.mp hmid) ?_
      exact ReflTransGen.mono (fun _ _ hstep => hmem.mp hstep.1) _ _ (mem_again.mp hstop)
    · rw [if_neg hless, List.mem_singleton] at hstop
      subst hstop
      exact TransGen.single (hmem.mp hmid)
  · intro h
    -- From the front, since the list is unrolled from the first round on.
    induction h using TransGen.head_induction_on with
    | single hround =>
      refine ⟨stop, hmem.mpr hround, ?_⟩
      split
      next => exact self_mem_again
      next => exact List.mem_singleton_self _
    | head hround hrounds ih =>
      rcases hround.length_lt_or_eq hgroup with hless | rfl
      · refine ⟨_, hmem.mpr hround, ?_⟩
        rw [if_pos hless]
        exact mem_again_of_reads hgroup hmem hrounds.to_reflTransGen
      · exact ih

/-- **The readings of a pattern are all places that it can read to.** -/
theorem mem_readings : ∀ {pattern : Pattern}, pattern.roundsHoldNoGroup = true →
    ∀ {start stop : Progress}, stop ∈ pattern.readings start ↔ pattern.Reads start stop := by
  intro pattern
  induction pattern with
  | empty =>
    intro _ start stop
    exact List.mem_singleton
  | one accepts =>
    intro _ start stop
    exact mem_readOne
  | many accepts =>
    intro _ start stop
    exact mem_again_readOne
  | few accepts =>
    intro _ start stop
    exact mem_again_readOne
  | seq first second ihFirst ihSecond =>
    intro h start stop
    rw [roundsHoldNoGroup, Bool.and_eq_true] at h
    rw [readings, List.mem_flatMap, Reads]
    exact exists_congr fun mid => and_congr (ihFirst h.1) (ihSecond h.2)
  | either first second ihFirst ihSecond =>
    intro h start stop
    rw [roundsHoldNoGroup, Bool.and_eq_true] at h
    rw [readings, List.mem_append, Reads, ihFirst h.1, ihSecond h.2]
  | rounds preference body ih =>
    intro h start stop
    exact mem_rounds h (ih (roundsHoldNoGroup_of_holdsNoGroup h))
  | group index body ih =>
    intro h start stop
    rw [readings, List.mem_map, Reads]
    exact exists_congr fun mid => and_congr (ih h) eq_comm
  | check holds =>
    intro _ start stop
    rw [readings, Reads]
    by_cases hc : holds start.offset start.rest = true
    · simp [hc]
    · simp [hc]

end FileLore.Pattern
