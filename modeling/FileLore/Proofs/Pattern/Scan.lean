import FileLore.Proofs.Pattern.Preferred
import Mathlib.Data.List.Basic

/-!
# Scanning a text

All matches of a pattern in a text form a scan of it (`IsScan`): stretches from
left to right that do not overlap, each the preferred reading of the pattern at
its start, such that no reading of the pattern begins outside of them. There is
exactly one scan of a text, and `allMatches` is it (`isScan_iff`), if the pattern
always reads something.

What a pattern always does can be told by its form: whether it reads something
(`readsAlways`) and whether it remembers a group (`remembers`).
-/

namespace FileLore.Pattern

open Relation (TransGen)

variable {pattern : Pattern} {source : List Char} {start stop : Progress}

/-! ## What the form of a pattern tells -/

/-- Whether the form of the pattern shows that it reads at least one character. -/
def readsAlways : Pattern → Bool
  | one _ => true
  | seq first second => first.readsAlways || second.readsAlways
  | either first second => first.readsAlways && second.readsAlways
  | rounds _ body => body.readsAlways
  | group _ body => body.readsAlways
  | _ => false

/-- Whether the form of the pattern shows that it remembers a group. -/
def remembers (index : Nat) : Pattern → Bool
  | seq first second => first.remembers index || second.remembers index
  | either first second => first.remembers index && second.remembers index
  | group other body => other == index || body.remembers index
  | _ => false

theorem Ahead.offset_le (h : Ahead start stop) : start.offset ≤ stop.offset := by
  obtain ⟨read, -, hread, -⟩ := h
  omega

/-- A pattern that always reads something stops behind its start. -/
theorem Reads.offset_lt : ∀ {pattern : Pattern} {start stop : Progress},
    pattern.readsAlways = true → pattern.Reads start stop → start.offset < stop.offset := by
  intro pattern
  induction pattern with
  | one accepts =>
    intro start stop _ hread
    obtain ⟨c, rest, -, -, rfl⟩ := hread
    exact Nat.lt_succ_self _
  | seq first second ihFirst ihSecond =>
    intro start stop h hread
    obtain ⟨mid, hfirst, hsecond⟩ := hread
    rw [readsAlways, Bool.or_eq_true] at h
    rcases h with h | h
    · exact Nat.lt_of_lt_of_le (ihFirst h hfirst) hsecond.ahead.offset_le
    · exact Nat.lt_of_le_of_lt hfirst.ahead.offset_le (ihSecond h hsecond)
  | either first second ihFirst ihSecond =>
    intro start stop h hreads
    rw [readsAlways, Bool.and_eq_true] at h
    rcases hreads with hfirst | hsecond
    · exact ihFirst h.1 hfirst
    · exact ihSecond h.2 hsecond
  | rounds preference body ih =>
    intro start stop h hreads
    induction hreads with
    | single hround => exact ih h hround
    | tail _ hround ih' => exact Nat.lt_trans ih' (ih h hround)
  | group index body ih =>
    intro start stop h hread
    obtain ⟨mid, hmid, rfl⟩ := hread
    have hless := ih h hmid
    exact hless
  | _ =>
    intro start stop h
    cases h

/-- What has been remembered is not forgotten. -/
theorem Reads.lookup_isSome {index : Nat} : ∀ {pattern : Pattern} {start stop : Progress},
    pattern.Reads start stop → (start.groups.lookup index).isSome →
      (stop.groups.lookup index).isSome := by
  intro pattern
  induction pattern with
  | empty =>
    intro start stop hread
    subst hread
    exact id
  | one accepts =>
    intro start stop hread
    obtain ⟨c, rest, -, -, rfl⟩ := hread
    exact id
  | many accepts =>
    intro start stop hread
    obtain ⟨text, rest, -, -, rfl⟩ := hread
    exact id
  | few accepts =>
    intro start stop hread
    obtain ⟨text, rest, -, -, rfl⟩ := hread
    exact id
  | seq first second ihFirst ihSecond =>
    intro start stop hread
    obtain ⟨mid, hfirst, hsecond⟩ := hread
    exact fun h => ihSecond hsecond (ihFirst hfirst h)
  | either first second ihFirst ihSecond =>
    intro start stop hread
    rcases hread with hfirst | hsecond
    · exact ihFirst hfirst
    · exact ihSecond hsecond
  | rounds preference body ih =>
    intro start stop hreads
    induction hreads with
    | single hround => exact ih hround
    | tail _ hround ih' => exact fun h => ih hround (ih' h)
  | group other body ih =>
    intro start stop hread h
    obtain ⟨mid, hmid, rfl⟩ := hread
    rw [Progress.remember, List.lookup_cons]
    split
    next => rfl
    next => exact ih hmid h
  | check holds =>
    intro start stop hread
    obtain ⟨-, rfl⟩ := hread
    exact id

/-- A pattern that remembers a group has remembered it where it stops. -/
theorem Reads.remembered {index : Nat} : ∀ {pattern : Pattern} {start stop : Progress},
    pattern.remembers index = true → pattern.Reads start stop →
      (stop.groups.lookup index).isSome := by
  intro pattern
  induction pattern with
  | seq first second ihFirst ihSecond =>
    intro start stop h hread
    obtain ⟨mid, hfirst, hsecond⟩ := hread
    rw [remembers, Bool.or_eq_true] at h
    rcases h with h | h
    · exact hsecond.lookup_isSome (ihFirst h hfirst)
    · exact ihSecond h hsecond
  | either first second ihFirst ihSecond =>
    intro start stop h hreads
    rw [remembers, Bool.and_eq_true] at h
    rcases hreads with hfirst | hsecond
    · exact ihFirst h.1 hfirst
    · exact ihSecond h.2 hsecond
  | group other body ih =>
    intro start stop h hread
    obtain ⟨mid, hmid, rfl⟩ := hread
    rw [Progress.remember, List.lookup_cons]
    split
    next => rfl
    next hne =>
      rw [remembers, Bool.or_eq_true] at h
      refine ih (h.resolve_left fun heq => ?_) hmid
      simp_all
  | _ =>
    intro start stop h
    cases h

/-! ## Scans -/

/-- A place in a text from which a search can begin. -/
def placeAt (source : List Char) (offset : Nat) : Progress := ⟨offset, source.drop offset, []⟩

/-- Whether a place is one in the text. -/
def StandsIn (source : List Char) (place : Progress) : Prop :=
  source.drop place.offset = place.rest

theorem StandsIn.ahead (h : StandsIn source start) (hahead : Ahead start stop) :
    StandsIn source stop := by
  obtain ⟨read, -, hoffset, hrest⟩ := hahead
  rw [StandsIn, hoffset, hrest, ← List.drop_drop, h]

theorem StandsIn.suffix (h : StandsIn source start) : start.rest <:+ source :=
  h ▸ List.drop_suffix _ _

theorem StandsIn.mem_readings (h : StandsIn source start)
    (hholds : pattern.roundsHoldNoGroup = true) (hstop : stop ∈ pattern.readings start) :
    StandsIn source stop :=
  h.ahead ((Pattern.mem_readings hholds).mp hstop).ahead

/-- Whether a match is the preferred reading of the pattern at its start. -/
def IsPreferred (pattern : Pattern) (source : List Char) (found : Match) : Prop :=
  ∃ stop, (pattern.readings (placeAt source found.span.start)).head? = some stop ∧
    found = ⟨⟨found.span.start, stop.offset⟩, stop.groups⟩

/-- Whether the matches are those of the pattern from an offset on: preferred readings from left to
right that do not overlap, with no reading that begins outside of them. -/
structure IsScanFrom (pattern : Pattern) (source : List Char) (resume : Nat)
    (hits : List Match) : Prop where
  preferred : ∀ found ∈ hits, pattern.IsPreferred source found
  within : ∀ found ∈ hits, resume ≤ found.span.start ∧ found.span.start < found.span.stop ∧
    found.span.stop ≤ source.length
  apart : hits.Pairwise fun found next => found.span.stop ≤ next.span.start
  complete : ∀ offset, resume ≤ offset → offset ≤ source.length →
    (∀ found ∈ hits, offset < found.span.start ∨ found.span.stop ≤ offset) →
      ∀ stop, ¬pattern.Reads (placeAt source offset) stop

/-- Whether the matches are those of the pattern in the whole text. -/
def IsScan (pattern : Pattern) (source : List Char) (hits : List Match) : Prop :=
  pattern.IsScanFrom source 0 hits

/-- The search finds a match at a place just if it is preferred there. -/
theorem matchAt?_eq_some (h : pattern.roundsHoldNoGroup = true) {offset : Nat} {found : Match} :
    pattern.matchAt? offset (source.drop offset) = some found ↔
      found.span.start = offset ∧ pattern.IsPreferred source found := by
  rw [matchAt?_eq_preferred h, Option.map_eq_some_iff]
  constructor
  · intro ⟨stop, hhead, heq⟩
    subst heq
    exact ⟨rfl, stop, hhead, rfl⟩
  · intro ⟨hstart, stop, hhead, heq⟩
    subst hstart
    exact ⟨stop, hhead, heq.symm⟩

theorem matchAt?_eq_none (h : pattern.roundsHoldNoGroup = true) {offset : Nat} :
    pattern.matchAt? offset (source.drop offset) = none ↔
      ∀ stop, ¬pattern.Reads (placeAt source offset) stop := by
  rw [matchAt?_eq_preferred h, Option.map_eq_none_iff, List.head?_eq_none_iff,
    List.eq_nil_iff_forall_not_mem]
  exact forall_congr' fun stop => not_congr (mem_readings h)

theorem IsPreferred.reads (h : pattern.roundsHoldNoGroup = true) {found : Match}
    (hfound : pattern.IsPreferred source found) :
    ∃ stop, pattern.Reads (placeAt source found.span.start) stop ∧
      found.span.stop = stop.offset ∧ found.groups = stop.groups := by
  obtain ⟨stop, hhead, heq⟩ := hfound
  refine ⟨stop, (mem_readings h).mp (List.mem_of_mem_head? hhead), ?_, ?_⟩
  · rw [heq]
  · rw [heq]

/-- There is one preferred reading at a place at most. -/
theorem IsPreferred.unique {found other : Match} (h : pattern.IsPreferred source found)
    (h' : pattern.IsPreferred source other) (hstart : found.span.start = other.span.start) :
    found = other := by
  obtain ⟨stop, hhead, heq⟩ := h
  obtain ⟨stop', hhead', heq'⟩ := h'
  rw [hstart, hhead'] at hhead
  injection hhead with hstop
  rw [heq, heq', hstart, hstop]

/-- A preferred reading stops behind its start and within the text. -/
theorem IsPreferred.within (h : pattern.roundsHoldNoGroup = true)
    (hreads : pattern.readsAlways = true) {found : Match} (hfound : pattern.IsPreferred source found)
    (hstart : found.span.start ≤ source.length) :
    found.span.start < found.span.stop ∧ found.span.stop ≤ source.length := by
  obtain ⟨stop, hstop, hspan, -⟩ := hfound.reads h
  have hless := hstop.offset_lt hreads
  have hlength := hstop.ahead.length
  simp only [placeAt, List.length_drop] at hless hlength
  omega

theorem isScanFrom_end (hreads : pattern.readsAlways = true) {resume : Nat}
    (hend : source.length ≤ resume) : pattern.IsScanFrom source resume [] := by
  refine ⟨fun _ hmem => absurd hmem List.not_mem_nil, fun _ hmem => absurd hmem List.not_mem_nil,
    List.Pairwise.nil, fun offset hoffset hle _ stop hstop => ?_⟩
  have hless := hstop.offset_lt hreads
  have hlength := hstop.ahead.length
  simp only [placeAt, List.length_drop] at hless hlength
  omega

/-- A preferred reading and the scan from where it stops are a scan. -/
theorem IsScanFrom.cons (h : pattern.roundsHoldNoGroup = true) (hreads : pattern.readsAlways = true)
    {found : Match} {hits : List Match} (hpreferred : pattern.IsPreferred source found)
    (hstart : found.span.start ≤ source.length)
    (hscan : pattern.IsScanFrom source found.span.stop hits) :
    pattern.IsScanFrom source found.span.start (found :: hits) := by
  have hwithin := hpreferred.within h hreads hstart
  refine ⟨fun next hnext => ?_, fun next hnext => ?_, ?_, fun offset hoffset hle hfree => ?_⟩
  · rcases List.mem_cons.mp hnext with heq | hnext
    · rw [heq]
      exact hpreferred
    · exact hscan.preferred next hnext
  · rcases List.mem_cons.mp hnext with heq | hnext
    · rw [heq]
      omega
    · have := hscan.within next hnext
      omega
  · exact List.pairwise_cons.mpr ⟨fun next hnext => (hscan.within next hnext).1, hscan.apart⟩
  · have hafter := hfree found (List.mem_cons_self ..)
    exact hscan.complete offset (by omega) hle fun next hnext =>
      hfree next (List.mem_cons_of_mem _ hnext)

/-- A place at which the pattern cannot be read may be passed over. -/
theorem IsScanFrom.skip {offset : Nat} {hits : List Match}
    (hnone : ∀ stop, ¬pattern.Reads (placeAt source offset) stop)
    (hscan : pattern.IsScanFrom source (offset + 1) hits) :
    pattern.IsScanFrom source offset hits := by
  refine ⟨hscan.preferred, fun next hnext => ?_, hscan.apart, fun place hplace hle hfree => ?_⟩
  · have := hscan.within next hnext
    omega
  · rcases Nat.eq_or_lt_of_le hplace with heq | hlater
    · rw [← heq]
      exact hnone
    · exact hscan.complete place hlater hle hfree

/-- Searching on from an offset yields the matches from there on, where places before `resume` are
passed over. -/
theorem isScanFrom_matchesFrom (h : pattern.roundsHoldNoGroup = true)
    (hreads : pattern.readsAlways = true) :
    ∀ (rest : List Char) (offset resume : Nat), source.drop offset = rest →
      offset ≤ source.length →
        pattern.IsScanFrom source (max resume offset) (pattern.matchesFrom resume offset rest) := by
  intro rest
  induction rest with
  | nil =>
    intro offset resume hrest hle
    have hend : source.length ≤ offset := List.drop_eq_nil_iff.mp hrest
    exact isScanFrom_end hreads (Nat.le_trans hend (Nat.le_max_right ..))
  | cons c rest ih =>
    intro offset resume hrest hle
    have hless : offset < source.length := by
      have hlength := congrArg List.length hrest
      rw [List.length_drop, List.length_cons] at hlength
      omega
    have hrest' : source.drop (offset + 1) = rest := by
      rw [← List.drop_drop, hrest]
      rfl
    have ih' (resume : Nat) := ih (offset + 1) resume hrest' hless
    rw [matchesFrom]
    split
    next hskip =>
      -- The last match reaches beyond this place.
      rw [show max resume offset = max resume (offset + 1) by omega]
      exact ih' resume
    next hresume =>
      rw [show max resume offset = offset by omega, ← hrest]
      split
      next found hfound =>
        obtain ⟨hstart, hpreferred⟩ := (matchAt?_eq_some h).mp hfound
        have hwithin := hpreferred.within h hreads (by omega)
        -- The search passes over the places before the match stops, all of which are behind `offset`.
        have hscan := ih' found.span.stop
        rw [show max found.span.stop (offset + 1) = found.span.stop by omega] at hscan
        have hcons := hscan.cons h hreads hpreferred (by omega)
        rwa [hstart] at hcons
      next hnone =>
        have hscan := ih' resume
        rw [show max resume (offset + 1) = offset + 1 by omega] at hscan
        exact hscan.skip ((matchAt?_eq_none h).mp hnone)

/-- The first match of a scan starts no later than any other place at which the pattern can be
read. -/
theorem IsScanFrom.start_le (h : pattern.roundsHoldNoGroup = true) {resume : Nat} {found other : Match}
    {hits : List Match} (hscan : pattern.IsScanFrom source resume (found :: hits))
    (hresume : resume ≤ other.span.start) (hle : other.span.start ≤ source.length)
    (hother : pattern.IsPreferred source other) : found.span.start ≤ other.span.start := by
  obtain ⟨stop, hstop, -⟩ := hother.reads h
  -- Otherwise it would lie before the first match, where the scan leaves no reading out.
  refine Nat.le_of_not_lt fun hbefore => ?_
  refine hscan.complete other.span.start hresume hle (fun next hnext => Or.inl ?_) stop hstop
  have hfound := hscan.within found (List.mem_cons_self ..)
  rcases List.mem_cons.mp hnext with heq | hnext
  · rw [heq]
    omega
  · have := (List.pairwise_cons.mp hscan.apart).1 next hnext
    omega

/-- All matches of a scan but the last one stop before the end of the text. -/
theorem IsScanFrom.exists_last {resume : Nat} {hits : List Match}
    (hscan : pattern.IsScanFrom source resume hits) :
    ∃ earlier last, hits = earlier ++ last ∧ last.length ≤ 1 ∧
      (∀ hit ∈ earlier, hit.span.stop < source.length) ∧
        ∀ hit ∈ last, hit.span.stop = source.length := by
  rcases List.eq_nil_or_concat' hits with rfl | ⟨earlier, final, rfl⟩
  · exact ⟨[], [], rfl, Nat.zero_le _, nofun, nofun⟩
  have hfinal := hscan.within final (List.mem_append_right _ List.mem_cons_self)
  have hearlier : ∀ hit ∈ earlier, hit.span.stop < source.length := by
    intro hit hhit
    have happart := (List.pairwise_append.mp hscan.apart).2.2 hit hhit final List.mem_cons_self
    omega
  by_cases hstop : final.span.stop = source.length
  · refine ⟨earlier, [final], rfl, Nat.le_refl 1, hearlier, fun hit hhit => ?_⟩
    rwa [List.mem_singleton.mp hhit]
  · refine ⟨earlier ++ [final], [], (List.append_nil _).symm, Nat.zero_le _, fun hit hhit => ?_,
      nofun⟩
    rcases List.mem_append.mp hhit with hhit | hhit
    · exact hearlier hit hhit
    · rw [List.mem_singleton.mp hhit]
      omega

theorem IsScanFrom.tail {resume : Nat} {found : Match} {hits : List Match}
    (hscan : pattern.IsScanFrom source resume (found :: hits)) :
    pattern.IsScanFrom source found.span.stop hits := by
  have hfirst := hscan.within found (List.mem_cons_self ..)
  have happart := List.pairwise_cons.mp hscan.apart
  refine ⟨fun next hnext => hscan.preferred next (List.mem_cons_of_mem _ hnext),
    fun next hnext => ⟨happart.1 next hnext, (hscan.within next (List.mem_cons_of_mem _ hnext)).2⟩,
    happart.2, fun offset hoffset hle hfree => ?_⟩
  refine hscan.complete offset (by omega) hle fun next hnext => ?_
  rcases List.mem_cons.mp hnext with heq | hnext
  · rw [heq]
    exact Or.inr hoffset
  · exact hfree next hnext

/-- There is only one scan from an offset on. -/
theorem IsScanFrom.unique (h : pattern.roundsHoldNoGroup = true) {hits : List Match} :
    ∀ {resume : Nat} {others : List Match}, pattern.IsScanFrom source resume hits →
      pattern.IsScanFrom source resume others → hits = others := by
  -- A scan without matches leaves no reading out, so no other scan begins with one.
  have hnone {resume : Nat} {other : Match} {others : List Match}
      (hnil : pattern.IsScanFrom source resume [])
      (hscan : pattern.IsScanFrom source resume (other :: others)) : False := by
    have hother := hscan.within other (List.mem_cons_self ..)
    obtain ⟨stop, hstop, -⟩ := (hscan.preferred other (List.mem_cons_self ..)).reads h
    exact hnil.complete other.span.start hother.1 (by omega)
      (fun _ hmem => absurd hmem List.not_mem_nil) stop hstop
  induction hits with
  | nil =>
    intro resume others hscan hscan'
    cases others with
    | nil => rfl
    | cons other others => exact (hnone hscan hscan').elim
  | cons found hits ih =>
    intro resume others hscan hscan'
    cases others with
    | nil => exact (hnone hscan' hscan).elim
    | cons other others =>
      have hfound := hscan.within found (List.mem_cons_self ..)
      have hother := hscan'.within other (List.mem_cons_self ..)
      have hpreferred := hscan.preferred found (List.mem_cons_self ..)
      have hpreferred' := hscan'.preferred other (List.mem_cons_self ..)
      -- Each of the two first matches would be missing from the other scan if it came before.
      have hle := hscan.start_le h hother.1 (by omega) hpreferred'
      have hle' := hscan'.start_le h hfound.1 (by omega) hpreferred
      obtain rfl := hpreferred.unique hpreferred' (Nat.le_antisymm hle hle')
      rw [ih hscan.tail hscan'.tail]

/-- **There is exactly one scan of a text by a pattern that always reads something, and it consists
of all matches.** -/
theorem isScan_iff (h : pattern.roundsHoldNoGroup = true) (hreads : pattern.readsAlways = true)
    {hits : List Match} : pattern.IsScan source hits ↔ hits = pattern.allMatches source := by
  have hall : pattern.IsScan source (pattern.allMatches source) :=
    isScanFrom_matchesFrom h hreads source 0 0 rfl (Nat.zero_le _)
  constructor
  · exact fun hscan => hscan.unique h hall
  · intro heq
    rw [heq]
    exact hall

end FileLore.Pattern
