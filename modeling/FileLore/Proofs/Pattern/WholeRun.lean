import FileLore.Proofs.Pattern.Taken
import Mathlib.Data.List.TakeWhile

/-!
# Runs that are read as a whole

A run of characters of a kind, remembered by a pattern, is not cut short behind:
either what the pattern goes on with is read only where no such run goes on, or it
can be read anywhere, so that nothing makes the longest run be given back
(`Prefers.run`).
-/

namespace FileLore.Pattern

variable {pattern : Pattern} {lead parts others : List Pattern} {accepts : Char → Bool}
  {source : List Char} {start stop : Progress} {index : Nat}

/-- Whether the preferred reading of the pattern from one place ends at another. -/
def Prefers (pattern : Pattern) (start stop : Progress) : Prop :=
  (pattern.readings start).head? = some stop

theorem Prefers.reads (hgroup : pattern.roundsHoldNoGroup = true) (h : pattern.Prefers start stop) :
    pattern.Reads start stop :=
  (mem_readings hgroup).mp (List.mem_of_mem_head? h)

theorem readings_sequence_append (lead parts : List Pattern) (place : Progress) :
    (sequence (lead ++ parts)).readings place =
      ((sequence lead).readings place).flatMap (sequence parts).readings := by
  induction lead generalizing place with
  | nil => exact (List.flatMap_singleton _ _).symm
  | cons first lead ih =>
    rw [List.cons_append, readings_sequence_cons, readings_sequence_cons, List.flatMap_assoc]
    exact congrArg (fun f => List.flatMap f (first.readings place)) (funext ih)

/-- A preferred reading of a sequence goes on by a preferred reading of its later parts. -/
theorem Prefers.later (h : (sequence (lead ++ parts)).Prefers start stop) :
    ∃ mid ∈ (sequence lead).readings start, (sequence parts).Prefers mid stop := by
  rw [Prefers, readings_sequence_append, List.head?_flatMap] at h
  exact List.exists_of_findSome?_eq_some h

/-- Whether the pattern leaves a run of characters in front of it as it is. -/
def LeavesRun (accepts : Char → Bool) (pattern : Pattern) : Prop :=
  FollowsRun accepts pattern ∨ ∀ place, pattern.readings place ≠ []

theorem endsRun_dropWhile (accepts : Char → Bool) (text : List Char) :
    EndsRun accepts (text.dropWhile accepts) := by
  intro c hc
  have hnot := List.head?_dropWhile_not accepts text
  rw [hc] at hnot
  exact hnot

/-- The longest run is the first one to be tried. -/
theorem head?_oneOrMore {text rest : List Char} (hne : text ≠ [])
    (hall : ∀ c ∈ text, accepts c = true) (hend : EndsRun accepts rest)
    (hrest : start.rest = text ++ rest) :
    ((oneOrMore accepts).readings start).head? = some (start.moved text.length rest) := by
  obtain ⟨offset, unread, groups⟩ := start
  obtain ⟨c, more, rfl⟩ := List.exists_cons_of_ne_nil hne
  obtain rfl : unread = c :: (more ++ rest) := hrest
  have hone : (one accepts).readings ⟨offset, c :: (more ++ rest), groups⟩ =
      [⟨offset + 1, more ++ rest, groups⟩] := if_pos (hall c List.mem_cons_self)
  have hrun := head?_again_readOne (fun d hd => hall d (List.mem_cons_of_mem _ hd)) hend groups
    (offset + 1)
  rw [oneOrMore, readings, hone, List.flatMap_singleton, readings, hrun, Progress.moved,
    List.length_cons, Nat.add_assoc, Nat.add_comm 1]

/-- The place behind the run of characters of a kind that goes on from a place. -/
def afterRun (accepts : Char → Bool) (place : Progress) : Progress :=
  place.moved (place.rest.takeWhile accepts).length (place.rest.dropWhile accepts)

theorem head?_oneOrMore_afterRun (h : start.rest.takeWhile accepts ≠ []) :
    ((oneOrMore accepts).readings start).head? = some (afterRun accepts start) :=
  head?_oneOrMore h (fun _ hc => List.mem_takeWhile_imp hc) (endsRun_dropWhile accepts start.rest)
    List.takeWhile_append_dropWhile.symm

theorem endsRun_of_head?_oneOrMore {mid : Progress}
    (h : ((oneOrMore accepts).readings start).head? = some mid) : EndsRun accepts mid.rest := by
  by_cases hne : start.rest.takeWhile accepts = []
  · -- Without a run there is no reading.
    obtain ⟨text, hfull, hall, hstart⟩ :=
      ((mem_readings rfl).mp (List.mem_of_mem_head? h)).oneOrMore
    obtain ⟨c, more, rfl⟩ := List.exists_cons_of_ne_nil hfull
    rw [hstart, List.cons_append, List.takeWhile_cons_of_pos (hall c List.mem_cons_self)] at hne
    cases hne
  · rw [head?_oneOrMore_afterRun hne] at h
    obtain rfl := Option.some.inj h
    exact endsRun_dropWhile accepts start.rest

/-- What precedes a pattern that can be read anywhere is read as preferred. -/
theorem Prefers.cons_of_always (h : (sequence (pattern :: others)).Prefers start stop)
    (halways : ∀ place, (sequence others).readings place ≠ []) :
    ∃ mid, pattern.Prefers start mid ∧ (sequence others).Prefers mid stop := by
  rw [Prefers, readings_sequence_cons] at h
  cases hfirst : pattern.readings start with
  | nil =>
    rw [hfirst] at h
    cases h
  | cons mid places =>
    obtain ⟨reached, hreached⟩ := Option.ne_none_iff_exists'.mp
      (mt List.head?_eq_none_iff.mp (halways mid))
    rw [hfirst, List.flatMap_cons, List.head?_append, hreached, Option.some_or] at h
    exact ⟨mid, by rw [Prefers, hfirst]; rfl, hreached.trans h⟩

theorem Prefers.endsRun
    (h : (sequence (group index (oneOrMore accepts) :: others)).Prefers start stop)
    (hothers : (sequence others).LeavesRun accepts)
    (hgroup : (sequence others).roundsHoldNoGroup = true) :
    ∃ mid, (group index (oneOrMore accepts)).Reads start mid ∧ EndsRun accepts mid.rest ∧
      (sequence others).Reads mid stop := by
  -- A shorter run is refused by what follows, or never tried, since the longest one is first.
  rcases hothers with hfollows | halways
  · have hlater : (sequence ([group index (oneOrMore accepts)] ++ others)).Prefers start stop := h
    obtain ⟨mid, hrun, hrest⟩ := hlater.later
    have hread := hrest.reads hgroup
    exact ⟨mid, (mem_readings rfl).mp hrun, hfollows mid stop hread, hread⟩
  · obtain ⟨mid, hrun, hread⟩ := h.cons_of_always halways
    refine ⟨mid, hrun.reads rfl, ?_, hread.reads hgroup⟩
    rw [Prefers, readings, List.head?_map, Option.map_eq_some_iff] at hrun
    obtain ⟨reached, hreached, rfl⟩ := hrun
    have hend := endsRun_of_head?_oneOrMore hreached
    exact hend

/-- **A remembered run is a whole run behind**: it is followed by no further character of the kind,
if what comes next leaves it as it is. -/
theorem Prefers.run (h : (sequence (group index (oneOrMore accepts) :: others)).Prefers start stop)
    (hothers : (sequence others).LeavesRun accepts)
    (hgroup : (sequence others).holdsNoGroup = true)
    (hsource : source.drop start.offset = start.rest) :
    ∃ run rest, start.rest = run ++ rest ∧ run ≠ [] ∧ (∀ c ∈ run, accepts c = true) ∧
      EndsRun accepts rest ∧ (stop.groups.lookup index).map (·.text source) = some run := by
  obtain ⟨mid, ⟨reached, hrun, rfl⟩, hrest, hread⟩ :=
    h.endsRun hothers (roundsHoldNoGroup_of_holdsNoGroup hgroup)
  obtain ⟨run, hne, hall, hsplit⟩ := hrun.oneOrMore
  have hlength := hrun.ahead.length
  rw [hsplit, List.length_append] at hlength
  have hoffset : reached.offset - start.offset = run.length := by omega
  have hgroups : stop.groups.lookup index = some ⟨start.offset, reached.offset⟩ := by
    rw [hread.groups_eq hgroup, Progress.remember, List.lookup_cons, beq_self_eq_true]
  refine ⟨run, reached.rest, hsplit, hne, hall, hrest, ?_⟩
  rw [hgroups, Option.map_some, Span.text, hsource, hsplit, hoffset, List.take_left]

/-- **A run that a pattern ends in** goes on as far as there are characters of the kind. -/
theorem Prefers.last_run
    (h : (sequence (lead ++ [group index (oneOrMore accepts)])).Prefers start stop)
    (hlead : (sequence lead).roundsHoldNoGroup = true) (hstart : StandsIn source start) :
    ∃ before run, source = before ++ (run ++ stop.rest) ∧ run ≠ [] ∧
      (∀ c ∈ run, accepts c = true) ∧ EndsRun accepts stop.rest ∧ StandsIn source stop ∧
        (stop.groups.lookup index).map (·.text source) = some run := by
  obtain ⟨mid, hmid, hlast⟩ := h.later
  have hmid : StandsIn source mid := hstart.mem_readings hlead hmid
  obtain ⟨reached, hreached, rfl⟩ :=
    Option.map_eq_some_iff.mp ((List.head?_map ..).symm.trans hlast)
  have hrun : (oneOrMore accepts).Reads mid reached :=
    (mem_readings rfl).mp (List.mem_of_mem_head? hreached)
  obtain ⟨run, hne, hall, hrest⟩ := hrun.oneOrMore
  have hlength := hrun.ahead.length
  rw [hrest, List.length_append] at hlength
  have hcount : reached.offset - mid.offset = run.length := by omega
  have hend : EndsRun accepts reached.rest := endsRun_of_head?_oneOrMore hreached
  refine ⟨source.take mid.offset, run, ?_, hne, hall, hend, hmid.ahead hrun.ahead, ?_⟩
  · show source = source.take mid.offset ++ (run ++ reached.rest)
    rw [← hrest, ← hmid, List.take_append_drop]
  · rw [Progress.remember, List.lookup_cons, beq_self_eq_true, Option.map_some, Span.text, hmid,
      hrest, hcount, List.take_left]

/-! ## What precedes a run -/

variable {first body : Pattern}

/-- Whether the last character that the pattern reads is of a kind. -/
def EndsIn (accepts : Char → Bool) (pattern : Pattern) : Prop :=
  ∀ start stop : Progress, pattern.Reads start stop →
    ∃ text c, accepts c = true ∧ start.rest = text ++ c :: stop.rest

theorem Reads.append (h : pattern.Reads start stop) : ∃ text, start.rest = text ++ stop.rest := by
  obtain ⟨read, -, -, hrest⟩ := h.ahead
  exact ⟨start.rest.take read, by rw [hrest, List.take_append_drop]⟩

theorem endsIn_oneOrMore : EndsIn accepts (oneOrMore accepts) := by
  intro start stop hread
  obtain ⟨run, hne, hall, hstart⟩ := hread.oneOrMore
  obtain ⟨text, c, rfl⟩ := (List.eq_nil_or_concat run).resolve_left hne
  refine ⟨text, c, hall c (by simp), ?_⟩
  rw [hstart, List.concat_eq_append, List.append_assoc]
  rfl

theorem EndsIn.cons (h : EndsIn accepts (sequence parts)) (first : Pattern) :
    EndsIn accepts (sequence (first :: parts)) := by
  intro start stop hread
  obtain ⟨mid, hfirst, hread⟩ := reads_sequence_cons.mp hread
  obtain ⟨before, hbefore⟩ := hfirst.append
  obtain ⟨text, c, hc, htext⟩ := h mid stop hread
  exact ⟨before ++ text, c, hc, by rw [hbefore, htext, List.append_assoc]⟩

theorem EndsIn.then_optional (h : EndsIn accepts first) (hbody : EndsIn accepts body) :
    EndsIn accepts (sequence [first, optional body]) := by
  intro start stop hread
  obtain ⟨mid, hfirst, hbodyRead | rfl⟩ := reads_sequence_cons.mp hread
  · obtain ⟨before, hbefore⟩ := hfirst.append
    obtain ⟨text, c, hc, htext⟩ := hbody mid stop hbodyRead
    exact ⟨before ++ text, c, hc, by rw [hbefore, htext, List.append_assoc]⟩
  · exact h start stop hfirst

end FileLore.Pattern
