import FileLore.Proofs.Pattern.Readings

/-!
# The search finds the preferred reading

A repetition is not searched by going through its unrolled readings: places that
have been visited are not entered again, so that the work stays in proportion to
the text. This file shows that nothing is lost by that. Whatever the rest of a
pattern makes of a place, the first acceptable place is the same in the places
that `allRounds` visits and in the unrolled rounds (`agree_allRounds`); hence the
search finds the preferred one of all readings (`matchAt?_eq_preferred`).

The invariant is that the visited places are closed under going on from them, at
all offsets after the place that is being explored (`Closed`). The place itself
and those that lead to it are still open, but steps read forward and never come
back to them.
-/

namespace FileLore.Pattern

variable {base place start mid stop next : Progress} {pattern body : Pattern}
  {preference : Preference} {step other : Progress → List Progress} {places others : List Progress}
  {reached : Reached}

/-! ## Lists with the same first results -/

theorem findSome?_cons_eq_or {α γ : Type} (f : α → Option γ) (item : α) (items : List α) :
    (item :: items).findSome? f = (f item).or (items.findSome? f) := by
  rw [List.findSome?_cons]
  cases f item <;> rfl

theorem findSome?_congr {α γ : Type} {f g : α → Option γ} {items : List α}
    (h : ∀ item ∈ items, f item = g item) : items.findSome? f = items.findSome? g := by
  induction items with
  | nil => rfl
  | cons item rest ih =>
    rw [findSome?_cons_eq_or, findSome?_cons_eq_or, h item List.mem_cons_self,
      ih fun other hother => h other (List.mem_cons_of_mem _ hother)]

/-- Whether a search finds the same in both lists, whatever it accepts. -/
def Agree (places others : List Progress) : Prop :=
  ∀ accept : Progress → Option Progress, places.findSome? accept = others.findSome? accept

theorem Agree.refl (places : List Progress) : Agree places places := fun _ => rfl

theorem Agree.trans {more : List Progress} (h : Agree places others) (h' : Agree others more) :
    Agree places more := fun accept => (h accept).trans (h' accept)

theorem Agree.append {more more' : List Progress} (h : Agree places others)
    (h' : Agree more more') : Agree (places ++ more) (others ++ more') := by
  intro accept
  rw [List.findSome?_append, List.findSome?_append, h accept, h' accept]

theorem Agree.flatMap {onward onward' : Progress → List Progress} (h : Agree places others)
    (h' : ∀ place, Agree (onward place) (onward' place)) :
    Agree (places.flatMap onward) (others.flatMap onward') := by
  intro accept
  rw [findSome?_flatMap_eq, findSome?_flatMap_eq, h]
  exact congrArg (others.findSome? ·) (funext fun place => h' place accept)

theorem Agree.map (h : Agree places others) (f : Progress → Progress) :
    Agree (places.map f) (others.map f) := by
  intro accept
  rw [List.findSome?_map, List.findSome?_map, h]

theorem Agree.head? (h : Agree places others) : places.head? = others.head? := by
  have hsome (places : List Progress) : places.findSome? some = places.head? := by
    cases places <;> rfl
  rw [← hsome, ← hsome, h]

theorem Agree.mem_iff (h : Agree places others) : place ∈ places ↔ place ∈ others := by
  classical
  have hfind (places : List Progress) :
      place ∈ places ↔ places.findSome? (fun p => if p = place then some p else none) ≠ none := by
    rw [ne_eq, List.findSome?_eq_none_iff]
    simp
  rw [hfind, hfind, h]

/-- Steps that agree go on in the same way. -/
theorem agree_again (h : ∀ place, Agree (step place) (other place)) :
    Agree (again preference step place) (again preference other place) := by
  induction hn : place.rest.length using Nat.strongRecOn generalizing place with
  | ind n ih =>
    subst hn
    have honward : Agree (onward preference step place) (onward preference other place) := by
      refine (h place).flatMap fun next => ?_
      split
      next hless => exact ih _ hless rfl
      next => exact Agree.refl []
    cases preference with
    | more =>
      rw [again_more, again_more]
      exact honward.append (Agree.refl _)
    | fewer =>
      rw [again_fewer, again_fewer]
      exact Agree.append (Agree.refl [place]) honward

/-! ## Characters of a kind -/

/-- The farthest places first are those of reading on as long as possible. -/
theorem longestFirst_eq (accepts : Char → Bool) (groups : List (Nat × Span)) (text : List Char) :
    ∀ (nearer : List Progress) (offset : Nat),
      longestFirst accepts nearer offset groups text =
        again .more (readOne accepts) ⟨offset, text, groups⟩ ++ nearer := by
  induction text with
  | nil =>
    intro nearer offset
    rw [again_more]
    rfl
  | cons c rest ih =>
    intro nearer offset
    rw [longestFirst, again_more, onward, readOne]
    by_cases hc : accepts c = true
    · simp [hc, ih, Progress.moved]
    · simp [hc]

theorem nearestFirst_eq (accepts : Char → Bool) (groups : List (Nat × Span)) (text : List Char) :
    ∀ offset : Nat, nearestFirst accepts offset groups text =
      again .fewer (readOne accepts) ⟨offset, text, groups⟩ := by
  induction text with
  | nil =>
    intro offset
    rw [again_fewer]
    rfl
  | cons c rest ih =>
    intro offset
    rw [nearestFirst, again_fewer, onward, readOne]
    by_cases hc : accepts c = true
    · simp [hc, ih, Progress.moved]
    · simp [hc]

/-! ## Places that have been visited -/

/-- Whether `stop` is reached from `start` without anything being remembered. -/
def OnLine (start stop : Progress) : Prop := Ahead start stop ∧ stop.groups = start.groups

theorem OnLine.trans (h : OnLine start mid) (h' : OnLine mid stop) : OnLine start stop :=
  ⟨h.1.trans h'.1, h'.2.trans h.2⟩

/-- Places on one line are told by their offsets. -/
theorem OnLine.eq_of_offset (h : OnLine base start) (h' : OnLine base stop)
    (hoffset : start.offset = stop.offset) : start = stop := by
  obtain ⟨⟨read, -, hread, hrest⟩, hgroups⟩ := h
  obtain ⟨⟨read', -, hread', hrest'⟩, hgroups'⟩ := h'
  obtain rfl : read = read' := by omega
  obtain ⟨offset, rest, groups⟩ := start
  obtain ⟨offset', rest', groups'⟩ := stop
  rw [Progress.mk.injEq]
  exact ⟨hoffset, hrest.trans hrest'.symm, hgroups.trans hgroups'.symm⟩

theorem OnLine.offset_lt_iff (h : OnLine start stop) :
    start.offset < stop.offset ↔ stop.rest.length < start.rest.length := by
  have hlength := h.1.length
  omega

/-- Places that go on from a place are on its line if steps are. -/
theorem onLine_of_mem_again (hstep : ∀ place, ∀ next ∈ step place, OnLine place next)
    (h : stop ∈ again preference step start) : OnLine start stop := by
  rw [mem_again] at h
  induction h with
  | refl => exact ⟨Ahead.refl _, rfl⟩
  | tail _ hnext ih => exact ih.trans (hstep _ _ hnext.1)

/-- Whether the places found are on the line of `base` and the bits tell their offsets. -/
structure Faithful (base : Progress) (reached : Reached) : Prop where
  onLine : ∀ place ∈ reached.found, OnLine base place
  visited : ∀ offset, reached.visited.testBit offset = true ↔
    ∃ place ∈ reached.found, place.offset = offset

theorem faithful_nothing (base : Progress) : Faithful base ⟨[], 0⟩ :=
  ⟨fun _ h => absurd h List.not_mem_nil, fun offset => by simp⟩

theorem Faithful.testBit_iff (h : Faithful base reached) (hline : OnLine base place) :
    reached.visited.testBit place.offset = true ↔ place ∈ reached.found := by
  rw [h.visited]
  constructor
  · intro hex
    obtain ⟨found, hmem, hoffset⟩ := hex
    rwa [← (h.onLine found hmem).eq_of_offset hline hoffset]
  · exact fun hmem => ⟨place, hmem, rfl⟩

theorem Faithful.visit_of_mem (h : Faithful base reached) (hmem : place ∈ reached.found) :
    reached.visit place = reached := by
  rw [Reached.visit, if_pos ((h.testBit_iff (h.onLine place hmem)).mpr hmem)]

theorem Faithful.visit_of_notMem (h : Faithful base reached) (hline : OnLine base place)
    (hmem : place ∉ reached.found) :
    (reached.visit place).found = place :: reached.found := by
  rw [Reached.visit, if_neg (mt (h.testBit_iff hline).mp hmem)]

theorem Faithful.mem_visit (h : Faithful base reached) (hline : OnLine base place) :
    stop ∈ (reached.visit place).found ↔ stop ∈ reached.found ∨ stop = place := by
  by_cases hmem : place ∈ reached.found
  · rw [h.visit_of_mem hmem]
    exact ⟨Or.inl, fun hor => hor.elim id fun heq => heq ▸ hmem⟩
  · rw [h.visit_of_notMem hline hmem, List.mem_cons, or_comm]

theorem Faithful.visit (h : Faithful base reached) (hline : OnLine base place) :
    Faithful base (reached.visit place) := by
  by_cases hmem : place ∈ reached.found
  · rwa [h.visit_of_mem hmem]
  · refine ⟨fun found hfound => ?_, fun offset => ?_⟩
    · rcases (h.mem_visit hline).mp hfound with hfound | rfl
      · exact h.onLine found hfound
      · exact hline
    · have hbits : (reached.visit place).visited = reached.visited ||| (1 <<< place.offset) := by
        rw [Reached.visit, if_neg (mt (h.testBit_iff hline).mp hmem)]
      rw [hbits, Nat.testBit_or, Nat.one_shiftLeft, Nat.testBit_two_pow, Bool.or_eq_true,
        h.visited, decide_eq_true_iff, h.visit_of_notMem hline hmem]
      simp [or_comm]

/-- Visits places in order. -/
def visitAll (places : List Progress) (reached : Reached) : Reached :=
  places.foldl (fun reached place => reached.visit place) reached

theorem visitAll_append (places others : List Progress) (reached : Reached) :
    visitAll (places ++ others) reached = visitAll others (visitAll places reached) :=
  List.foldl_append

theorem Faithful.visitAll (h : Faithful base reached) :
    (∀ place ∈ places, OnLine base place) → Faithful base (visitAll places reached) ∧
      ∀ stop, stop ∈ (visitAll places reached).found ↔ stop ∈ reached.found ∨ stop ∈ places := by
  induction places generalizing reached with
  | nil =>
    intro _
    exact ⟨h, fun stop => by simp [Pattern.visitAll]⟩
  | cons place places ih =>
    intro hline
    have hplace := hline place (List.mem_cons_self ..)
    obtain ⟨hfaithful, hmem⟩ := ih (h.visit hplace) fun other hother =>
      hline other (List.mem_cons_of_mem _ hother)
    refine ⟨hfaithful, fun stop => ?_⟩
    rw [List.mem_cons, ← or_assoc, ← h.mem_visit hplace]
    exact hmem stop

theorem Faithful.visitAll_of_mem (h : Faithful base reached)
    (hmem : ∀ place ∈ places, place ∈ reached.found) : Pattern.visitAll places reached = reached := by
  induction places with
  | nil => rfl
  | cons place places ih =>
    rw [Pattern.visitAll, List.foldl_cons, h.visit_of_mem (hmem place (List.mem_cons_self ..))]
    exact ih fun other hother => hmem other (List.mem_cons_of_mem _ hother)

/-- The places found by visiting agree with those that were visited. -/
theorem Faithful.agree_visitAll (h : Faithful base reached) :
    (∀ place ∈ places, OnLine base place) →
      Agree (Pattern.visitAll places reached).found.reverse (reached.found.reverse ++ places) := by
  induction places generalizing reached with
  | nil =>
    intro _
    rw [List.append_nil]
    exact Agree.refl _
  | cons place places ih =>
    intro hline
    have hplace := hline place (List.mem_cons_self ..)
    refine (ih (h.visit hplace) fun other hother =>
      hline other (List.mem_cons_of_mem _ hother)).trans ?_
    by_cases hmem : place ∈ reached.found
    · rw [h.visit_of_mem hmem]
      intro accept
      rw [List.findSome?_append, List.findSome?_append, List.findSome?_cons]
      cases hfound : reached.found.reverse.findSome? accept with
      | some found => rfl
      | none =>
        -- The place has been refused before, so it makes no difference here.
        have hplace : accept place = none :=
          List.findSome?_eq_none_iff.mp hfound place (List.mem_reverse.mpr hmem)
        rw [hplace]
    · rw [h.visit_of_notMem hplace hmem, List.reverse_cons, List.append_assoc]
      exact Agree.refl _

/-! ## Exploring -/

/-- Whether all that goes on from a place found at `offset` or later has been found. -/
def Closed (preference : Preference) (step : Progress → List Progress) (offset : Nat)
    (reached : Reached) : Prop :=
  ∀ place ∈ reached.found, offset ≤ place.offset →
    ∀ stop ∈ again preference step place, stop ∈ reached.found

theorem Closed.mono {offset later : Nat} (h : Closed preference step offset reached)
    (hle : offset ≤ later) : Closed preference step later reached :=
  fun place hmem hlater => h place hmem (Nat.le_trans hle hlater)

/-- Visiting all that goes on from a place leaves closed what was closed. -/
theorem Closed.visitAll_again {offset : Nat} (h : Closed preference step offset reached)
    (hstep : ∀ place, ∀ next ∈ step place, OnLine place next) (hfaithful : Faithful base reached)
    (hline : OnLine base place) :
    Closed preference step offset (visitAll (again preference step place) reached) := by
  obtain ⟨-, hmem⟩ := @Faithful.visitAll base (again preference step place) reached hfaithful
    fun stop hstop => hline.trans (onLine_of_mem_again hstep hstop)
  intro found hfound hoffset stop hstop
  rw [hmem] at hfound ⊢
  rcases hfound with hfound | hfound
  · exact Or.inl (h found hfound hoffset stop hstop)
  · exact Or.inr (again_trans hfound hstop)

theorem Closed.visit {offset : Nat} (h : Closed preference step offset reached)
    (hfaithful : Faithful base reached) (hline : OnLine base place)
    (hbefore : place.offset < offset) :
    Closed preference step offset (reached.visit place) := by
  intro found hfound hoffset stop hstop
  rw [hfaithful.mem_visit hline] at hfound ⊢
  rcases hfound with hfound | rfl
  · exact Or.inl (h found hfound hoffset stop hstop)
  · omega

/-- What a fold over the next places does, if it visits for each of them all that goes on there. -/
theorem foldl_eq_visitAll {explore : Reached → Progress → Reached}
    {onward : Progress → List Progress} {offset : Nat}
    (hexplore : ∀ next ∈ places, ∀ reached, Faithful base reached →
      Closed preference step offset reached → explore reached next = visitAll (onward next) reached ∧
        Faithful base (explore reached next) ∧ Closed preference step offset (explore reached next))
    (hfaithful : Faithful base reached) (hclosed : Closed preference step offset reached) :
    places.foldl explore reached = visitAll (places.flatMap onward) reached ∧
      Faithful base (places.foldl explore reached) := by
  induction places generalizing reached with
  | nil => exact ⟨rfl, hfaithful⟩
  | cons next places ih =>
    obtain ⟨hnext, hfaithful', hclosed'⟩ :=
      hexplore next (List.mem_cons_self ..) reached hfaithful hclosed
    rw [List.foldl_cons, List.flatMap_cons, visitAll_append, ← hnext]
    exact ih (fun other hother => hexplore other (List.mem_cons_of_mem _ hother)) hfaithful' hclosed'

theorem onward_eq_filter (hstep : ∀ place, ∀ next ∈ step place, OnLine place next)
    (place : Progress) :
    onward preference step place =
      ((step place).filter fun next => place.offset < next.offset).flatMap
        (again preference step) := by
  have hnext := hstep place
  rw [onward]
  generalize step place = nexts at hnext ⊢
  induction nexts with
  | nil => rfl
  | cons next nexts ih =>
    have hless := (hnext next (List.mem_cons_self ..)).offset_lt_iff
    rw [List.flatMap_cons, ih fun other hother => hnext other (List.mem_cons_of_mem _ hother)]
    by_cases h : next.rest.length < place.rest.length
    · rw [if_pos h, List.filter_cons_of_pos (by simpa using hless.mpr h), List.flatMap_cons]
    · rw [if_neg h, List.filter_cons_of_neg (by simpa using mt hless.mp h), List.nil_append]

theorem again_eq_self (h : place.rest = []) : again preference step place = [place] := by
  have honward : onward preference step place = [] := by
    rw [List.eq_nil_iff_forall_not_mem]
    intro stop hstop
    obtain ⟨mid, -, hless, -⟩ := mem_onward.mp hstop
    rw [h] at hless
    exact absurd hless (Nat.not_lt_zero _)
  cases preference with
  | more => rw [again_more, honward, List.nil_append]
  | fewer => rw [again_fewer, honward]

/-- **Exploring a place visits all that goes on from it, in order of preference**, where what has
been visited later in the text is closed. -/
theorem explore_eq_visitAll (hstep : ∀ place, ∀ next ∈ step place, OnLine place next) (fuel : Nat) :
    ∀ {place : Progress} {reached : Reached}, place.rest.length ≤ fuel → Faithful base reached →
      OnLine base place → Closed preference step place.offset reached →
        explore preference step fuel place reached =
          visitAll (again preference step place) reached := by
  induction fuel with
  | zero =>
    intro place reached hfuel _ _ _
    rw [again_eq_self (List.length_eq_zero_iff.mp (Nat.le_zero.mp hfuel))]
    rfl
  | succ fuel ih =>
    intro place reached hfuel hfaithful hline hclosed
    -- Steps lead behind the place, and everything there is closed, the place itself put aside.
    have hfold {reached : Reached} (hfaithful : Faithful base reached)
        (hclosed : Closed preference step (place.offset + 1) reached) :
        ((step place).filter fun next => place.offset < next.offset).foldl
            (fun reached next => explore preference step fuel next reached) reached =
          visitAll (onward preference step place) reached := by
      rw [onward_eq_filter hstep]
      refine (foldl_eq_visitAll (fun next hnext reached hfaithful hclosed => ?_) hfaithful
        hclosed).1
      obtain ⟨hmem, hless⟩ := List.mem_filter.mp hnext
      have hless := of_decide_eq_true hless
      have hnext := hstep place next hmem
      have hshort := hnext.offset_lt_iff.mp hless
      have heq := ih (by omega) hfaithful (hline.trans hnext) (hclosed.mono hless)
      rw [heq]
      refine ⟨rfl, ?_, hclosed.visitAll_again hstep hfaithful (hline.trans hnext)⟩
      exact (hfaithful.visitAll fun stop hstop =>
        (hline.trans hnext).trans (onLine_of_mem_again hstep hstop)).1
    have hclosed' := hclosed.mono (Nat.le_succ _)
    rw [explore]
    split
    next hvisited =>
      have hmem := (hfaithful.testBit_iff hline).mp hvisited
      rw [hfaithful.visitAll_of_mem (hclosed place hmem (Nat.le_refl _))]
    next hnew =>
      cases preference with
      | more =>
        rw [again_more, visitAll_append]
        exact congrArg (Reached.visit place) (hfold hfaithful hclosed')
      | fewer =>
        rw [again_fewer]
        exact hfold (hfaithful.visit hline)
          (hclosed'.visit hfaithful hline (Nat.lt_succ_self _))

/-- **The places that repeated steps visit agree with the unrolled rounds.** -/
theorem agree_allRounds (hstep : ∀ place, ∀ next ∈ step place, OnLine place next)
    (place : Progress) :
    Agree (allRounds preference step place) ((step place).flatMap fun next =>
      if next.rest.length < place.rest.length then again preference step next else [next]) := by
  -- All places in question lie on one line, so that their bits cannot be mistaken.
  have hline : ∀ stop ∈ ((step place).flatMap fun next =>
      if next.rest.length < place.rest.length then again preference step next else [next]),
        OnLine place stop := by
    intro stop hstop
    obtain ⟨next, hnext, hstop⟩ := List.mem_flatMap.mp hstop
    split at hstop
    next => exact (hstep place next hnext).trans (onLine_of_mem_again hstep hstop)
    next =>
      obtain rfl := List.mem_singleton.mp hstop
      exact hstep place stop hnext
  have hclosed : Closed preference step (place.offset + 1) ⟨[], 0⟩ :=
    fun found hfound => absurd hfound List.not_mem_nil
  -- One first round adds its end to the places found, with all that goes on from there.
  have hround : ∀ next ∈ step place, ∀ reached, Faithful place reached →
      Closed preference step (place.offset + 1) reached →
        let first := if place.offset < next.offset then
          explore preference step next.rest.length next reached else reached.visit next
        first = visitAll (if next.rest.length < place.rest.length then again preference step next
            else [next]) reached ∧
          Faithful place first ∧ Closed preference step (place.offset + 1) first := by
    intro next hmem reached hfaithful hclosed
    have hnext := hstep place next hmem
    dsimp only
    by_cases hless : place.offset < next.offset
    · have heq := explore_eq_visitAll hstep next.rest.length (Nat.le_refl _) hfaithful hnext
        (hclosed.mono hless)
      rw [if_pos hless, if_pos (hnext.offset_lt_iff.mp hless), heq]
      refine ⟨rfl, ?_, hclosed.visitAll_again hstep hfaithful hnext⟩
      exact (hfaithful.visitAll fun stop hstop =>
        hnext.trans (onLine_of_mem_again hstep hstop)).1
    · -- A round that reads nothing leads to the place itself.
      have hsame : next.offset < place.offset + 1 := by omega
      rw [if_neg hless, if_neg (mt hnext.offset_lt_iff.mpr hless)]
      exact ⟨rfl, hfaithful.visit hnext, hclosed.visit hfaithful hnext hsame⟩
  have hfold := (foldl_eq_visitAll hround (faithful_nothing place) hclosed).1
  rw [allRounds, hfold]
  exact (faithful_nothing place).agree_visitAll hline

/-! ## Patterns -/

/-- **All ways that the search knows of agree with the readings of the pattern.** -/
theorem agree_ways_readings : ∀ {pattern : Pattern}, pattern.roundsHoldNoGroup = true →
    ∀ place, Agree (pattern.ways place) (pattern.readings place) := by
  intro pattern
  induction pattern with
  | empty =>
    intro _ place
    exact Agree.refl _
  | one accepts =>
    intro _ place
    exact Agree.refl _
  | many accepts =>
    intro _ place
    rw [ways, longestFirst_eq, List.append_nil]
    exact Agree.refl _
  | few accepts =>
    intro _ place
    rw [ways, nearestFirst_eq]
    exact Agree.refl _
  | seq first second ihFirst ihSecond =>
    intro h place
    rw [roundsHoldNoGroup, Bool.and_eq_true] at h
    exact (ihFirst h.1 place).flatMap (ihSecond h.2)
  | either first second ihFirst ihSecond =>
    intro h place
    rw [roundsHoldNoGroup, Bool.and_eq_true] at h
    exact (ihFirst h.1 place).append (ihSecond h.2 place)
  | rounds preference body ih =>
    intro h place
    have hbody := ih (roundsHoldNoGroup_of_holdsNoGroup h)
    -- Without groups a place is told by its offset, which is all that the visited bits record.
    have hstep : ∀ place, ∀ next ∈ body.ways place, OnLine place next := by
      intro place next hnext
      rw [(hbody place).mem_iff, mem_readings (roundsHoldNoGroup_of_holdsNoGroup h)] at hnext
      exact ⟨hnext.ahead, hnext.groups_eq h⟩
    refine (agree_allRounds hstep place).trans ((hbody place).flatMap fun next => ?_)
    split
    next => exact agree_again hbody
    next => exact Agree.refl _
  | group index body ih =>
    intro h place
    exact (ih h place).map _
  | check holds =>
    intro _ place
    exact Agree.refl _

/-- **The search finds the preferred one of all readings of the pattern at a place.** -/
theorem matchAt?_eq_preferred (h : pattern.roundsHoldNoGroup = true) (offset : Nat)
    (rest : List Char) :
    pattern.matchAt? offset rest =
      ((pattern.readings ⟨offset, rest, []⟩).head?).map fun place =>
        ⟨⟨offset, place.offset⟩, place.groups⟩ := by
  rw [matchAt?_eq_head?, (agree_ways_readings h _).head?]

end FileLore.Pattern
