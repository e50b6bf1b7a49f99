import FileLore.Proofs.Pattern.Scan

/-!
# What a pattern takes

Where a text is made for a pattern, the parts of the pattern go straight through
it: each takes as much as it can, and what it leaves is what the next part begins
with. `Takes` says which stretch of a text the preferred reading of a pattern is,
with the text behind it still there, so that the stretches that the parts take
can be put together without regard to where they stand in a source
(`Takes.cons`). `Refuses` says that there is no reading at all. The search finds
what the pattern takes (`Takes.matchAt?`).
-/

namespace FileLore.Pattern

variable {pattern first second body : Pattern} {parts : List Pattern} {accepts : Char → Bool}
  {text more rest source : List Char} {words others : List (Nat × List Char)}

/-! ## Sequences and single texts -/

theorem readings_sequence_cons (first : Pattern) (parts : List Pattern) (place : Progress) :
    (sequence (first :: parts)).readings place =
      (first.readings place).flatMap (sequence parts).readings := by
  cases parts with
  | nil => exact (List.flatMap_singleton' (first.readings place)).symm
  | cons second parts => rfl

theorem reads_sequence_cons {start stop : Progress} :
    (sequence (first :: parts)).Reads start stop ↔
      ∃ mid, first.Reads start mid ∧ (sequence parts).Reads mid stop := by
  cases parts with
  | nil =>
    constructor
    · exact fun h => ⟨stop, h, rfl⟩
    · rintro ⟨mid, h, rfl⟩
      exact h
  | cons second parts => exact Iff.rfl

/-- Reading given characters reads these. -/
theorem Reads.literal {word : String} {start stop : Progress}
    (h : (literal word).Reads start stop) : start.rest = word.toList ++ stop.rest := by
  unfold Pattern.literal at h
  generalize word.toList = chars at h ⊢
  induction chars generalizing start with
  | nil => exact congrArg Progress.rest (Eq.symm h)
  | cons c chars ih =>
    rw [List.map_cons, reads_sequence_cons] at h
    obtain ⟨mid, ⟨d, rest, hrest, hd, rfl⟩, h⟩ := h
    rw [hrest, eq_of_beq hd, List.cons_append, ← ih h]
    rfl

/-- Reading characters of a kind, at least one, reads a stretch of them. -/
theorem Reads.oneOrMore {start stop : Progress} (h : (oneOrMore accepts).Reads start stop) :
    ∃ text ≠ [], (∀ c ∈ text, accepts c = true) ∧ start.rest = text ++ stop.rest := by
  obtain ⟨mid, ⟨c, rest, hrest, hc, rfl⟩, more, stopped, hmore, hall, rfl⟩ := h
  refine ⟨c :: more, List.cons_ne_nil c more, ?_, ?_⟩
  · intro d hd
    rcases List.mem_cons.mp hd with rfl | hd
    · exact hc
    · exact hall d hd
  · rw [hrest]
    exact congrArg (List.cons c) hmore

theorem Reads.many {start stop : Progress} (h : (many accepts).Reads start stop) :
    ∃ text, (∀ c ∈ text, accepts c = true) ∧ start.rest = text ++ stop.rest := by
  obtain ⟨text, rest, hrest, hall, rfl⟩ := h
  exact ⟨text, hall, hrest⟩

theorem holdsNoGroup_literal (word : String) : (literal word).holdsNoGroup = true := by
  unfold literal
  induction word.toList with
  | nil => rfl
  | cons c chars ih =>
    cases chars with
    | nil => rfl
    | cons d chars => exact ih

/-! ## Runs of characters -/

/-- Whether no run of characters of a kind reaches into the text. -/
def EndsRun (accepts : Char → Bool) (rest : List Char) : Prop :=
  ∀ c ∈ rest.head?, accepts c = false

theorem endsRun_cons {c : Char} : EndsRun accepts (c :: rest) ↔ accepts c = false := by
  simp [EndsRun]

/-- A text begins with one run only that the rest ends. -/
theorem run_unique {run other after rest : List Char} (h : run ++ rest = other ++ after)
    (hrun : ∀ c ∈ run, accepts c = true) (hother : ∀ c ∈ other, accepts c = true)
    (hrest : EndsRun accepts rest) (hafter : EndsRun accepts after) :
    run = other ∧ rest = after := by
  have hdrop {run rest : List Char} (hrun : ∀ c ∈ run, accepts c = true)
      (hrest : EndsRun accepts rest) : (run ++ rest).dropWhile accepts = rest := by
    rw [List.dropWhile_append_of_pos hrun]
    cases rest with
    | nil => rfl
    | cons c rest => rw [List.dropWhile_cons, endsRun_cons.mp hrest, if_neg Bool.false_ne_true]
  have hsame : rest = after := by rw [← hdrop hrun hrest, h, hdrop hother hafter]
  rw [hsame] at h
  exact ⟨List.append_cancel_right h, hsame⟩

/-- Whether the pattern is read only where no run of characters of a kind goes on. -/
def FollowsRun (accepts : Char → Bool) (pattern : Pattern) : Prop :=
  ∀ start stop : Progress, pattern.Reads start stop → EndsRun accepts start.rest

/-- A run of one kind follows a run of another. -/
theorem followsRun_oneOrMore {kind : Char → Bool} (h : ∀ c, kind c = true → accepts c = false) :
    FollowsRun accepts (oneOrMore kind) := by
  rintro start stop ⟨mid, ⟨c, rest, hstart, hc, -⟩, -⟩
  rw [hstart]
  exact endsRun_cons.mpr (h c hc)

theorem followsRun_literal {word : String} {c : Char} (hword : word.toList = c :: text)
    (hc : accepts c = false) : FollowsRun accepts (literal word) := by
  intro start stop hread
  rw [hread.literal, hword]
  exact endsRun_cons.mpr hc

theorem FollowsRun.cons (h : FollowsRun accepts first) (parts : List Pattern) :
    FollowsRun accepts (sequence (first :: parts)) := by
  intro start stop hread
  obtain ⟨mid, hfirst, -⟩ := reads_sequence_cons.mp hread
  exact h start mid hfirst

/-- What follows a run may stand behind something that may follow it, too. -/
theorem FollowsRun.optional_cons (hbody : FollowsRun accepts body)
    (hparts : FollowsRun accepts (sequence parts)) :
    FollowsRun accepts (sequence (optional body :: parts)) := by
  intro start stop hread
  obtain ⟨mid, hbodyRead | rfl, hlater⟩ := reads_sequence_cons.mp hread
  · exact hbody start mid hbodyRead
  · exact hparts mid stop hlater

theorem FollowsRun.many_cons {kind : Char → Bool} (h : ∀ c, kind c = true → accepts c = false)
    (hparts : FollowsRun accepts (sequence parts)) :
    FollowsRun accepts (sequence (many kind :: parts)) := by
  intro start stop hread
  obtain ⟨mid, hmany, hread⟩ := reads_sequence_cons.mp hread
  obtain ⟨text, hall, hstart⟩ := hmany.many
  rw [hstart]
  cases text with
  | nil => exact hparts mid stop hread
  | cons c text => exact endsRun_cons.mpr (h c (hall c List.mem_cons_self))

/-! ## Refusing -/

/-- Whether the pattern cannot be read at the text. -/
def Refuses (pattern : Pattern) (text : List Char) : Prop :=
  ∀ offset groups, pattern.readings ⟨offset, text, groups⟩ = []

theorem refuses_iff (h : pattern.roundsHoldNoGroup = true) :
    pattern.Refuses text ↔
      ∀ start stop : Progress, start.rest = text → ¬pattern.Reads start stop := by
  constructor
  · rintro hrefuses ⟨offset, rest, groups⟩ stop rfl hread
    have hmem := (mem_readings h).mpr hread
    rw [hrefuses] at hmem
    cases hmem
  · intro hnone offset groups
    exact List.eq_nil_iff_forall_not_mem.mpr fun stop hstop =>
      hnone _ stop rfl ((mem_readings h).mp hstop)

theorem Refuses.sequence (h : first.Refuses text) (parts : List Pattern) :
    (sequence (first :: parts)).Refuses text := by
  intro offset groups
  rw [readings_sequence_cons, h, List.flatMap_nil]

theorem Refuses.either (h : first.Refuses text) (h' : second.Refuses text) :
    (either first second).Refuses text := by
  intro offset groups
  rw [readings, h, h', List.append_nil]

theorem refuses_one {c : Char} (h : accepts c = false) : (one accepts).Refuses (c :: text) := by
  intro offset groups
  rw [readings, readOne]
  exact if_neg (by rw [h]; exact Bool.false_ne_true)

/-- Given characters are refused where they do not stand. -/
theorem refuses_literal {word : String} (h : ¬word.toList <+: text) :
    (literal word).Refuses text := by
  rw [refuses_iff (roundsHoldNoGroup_of_holdsNoGroup (holdsNoGroup_literal word))]
  rintro start stop rfl hread
  exact h ⟨stop.rest, hread.literal.symm⟩

/-! ## Taking -/

/-- The texts that remembered stretches of a source cover. -/
def remembered (source : List Char) (groups : List (Nat × Span)) : List (Nat × List Char) :=
  groups.map fun (index, span) => (index, span.text source)

/-- Whether the preferred reading of the pattern at `text ++ rest` is `text`, and `words` are the
texts remembered in it. -/
def Takes (pattern : Pattern) (text rest : List Char) (words : List (Nat × List Char)) : Prop :=
  ∀ (source : List Char) (offset : Nat) (groups : List (Nat × Span)),
    source.drop offset = text ++ rest →
      ∃ reached, (pattern.readings ⟨offset, text ++ rest, groups⟩).head? =
          some ⟨offset + text.length, rest, reached⟩ ∧
        remembered source reached = words ++ remembered source groups

theorem drop_of_append {offset : Nat} (h : source.drop offset = text ++ rest) :
    source.drop (offset + text.length) = rest := by
  rw [← List.drop_drop, h, List.drop_left]

theorem head?_flatMap {α β : Type} {items : List α} {f : α → List β} {item : α} {result : β}
    (h : items.head? = some item) (h' : (f item).head? = some result) :
    (items.flatMap f).head? = some result := by
  obtain ⟨rest, rfl⟩ := List.head?_eq_some_iff.mp h
  rw [List.flatMap_cons, List.head?_append, h']
  rfl

/-- A search through a list finds what belongs to the finds of another search, unless that finds
something at a special item. -/
theorem findSome?_map_or {α β : Type} {items : List α} {find other : α → Option β} {belongs : β → β}
    {special : α → Prop}
    (h : ∀ item ∈ items, (find item).map belongs = other item ∨
      special item ∧ (find item).isSome) :
    (items.findSome? find).map belongs = items.findSome? other ∨
      ∃ item ∈ items, special item ∧ items.findSome? find = find item := by
  induction items with
  | nil => exact .inl rfl
  | cons item items ih =>
    obtain ⟨hitem, hitems⟩ := List.forall_mem_cons.mp h
    cases hfind : find item with
    | some stop =>
      rw [List.findSome?_cons, List.findSome?_cons, hfind]
      rcases hitem with hsame | ⟨hspecial, -⟩
      · rw [hfind, Option.map_some] at hsame
        rw [← hsame]
        exact .inl rfl
      · exact .inr ⟨item, List.mem_cons_self, hspecial, hfind.symm⟩
    | none =>
      rcases hitem with hsame | ⟨-, hsome⟩
      · rw [hfind, Option.map_none] at hsame
        rw [List.findSome?_cons, List.findSome?_cons, hfind, ← hsame]
        rcases ih hitems with hrest | ⟨later, hlater, hspecial, heq⟩
        · exact .inl hrest
        · exact .inr ⟨later, List.mem_cons_of_mem _ hlater, hspecial, heq⟩
      · rw [hfind] at hsome
        cases hsome

theorem takes_nil (rest : List Char) : (sequence []).Takes [] rest [] :=
  fun _ _ groups _ => ⟨groups, rfl, rfl⟩

/-- **What the parts of a sequence take one after the other, the sequence takes.** -/
theorem Takes.cons (h : first.Takes text (more ++ rest) words)
    (h' : (sequence parts).Takes more rest others) :
    (sequence (first :: parts)).Takes (text ++ more) rest (others ++ words) := by
  intro source offset groups hsource
  rw [List.append_assoc] at hsource
  obtain ⟨mid, hfirst, hmid⟩ := h source offset groups hsource
  obtain ⟨reached, hparts, hreached⟩ := h' source _ mid (drop_of_append hsource)
  refine ⟨reached, ?_, ?_⟩
  · rw [readings_sequence_cons, List.append_assoc, List.length_append, ← Nat.add_assoc]
    exact head?_flatMap hfirst hparts
  · rw [hreached, hmid, List.append_assoc]

theorem takes_one {c : Char} (h : accepts c = true) (rest : List Char) :
    (one accepts).Takes [c] rest [] := by
  intro source offset groups _
  refine ⟨groups, ?_, rfl⟩
  rw [readings, readOne]
  exact congrArg List.head? (if_pos h)

theorem takes_literal (word : String) (rest : List Char) :
    (literal word).Takes word.toList rest [] := by
  unfold literal
  induction word.toList with
  | nil => exact takes_nil rest
  | cons c chars ih => exact (@takes_one (· == c) c (beq_self_eq_true c) _).cons ih

theorem head?_again_readOne (hall : ∀ c ∈ text, accepts c = true) (hrest : EndsRun accepts rest)
    (groups : List (Nat × Span)) : ∀ offset : Nat,
      (again .more (readOne accepts) ⟨offset, text ++ rest, groups⟩).head? =
        some ⟨offset + text.length, rest, groups⟩ := by
  induction text with
  | nil =>
    intro offset
    have hstep : readOne accepts ⟨offset, rest, groups⟩ = [] := by
      cases rest with
      | nil => rfl
      | cons c rest => exact if_neg (by rw [endsRun_cons.mp hrest]; exact Bool.false_ne_true)
    rw [List.nil_append, again_more, onward, hstep]
    rfl
  | cons c text ih =>
    intro offset
    have hstep : readOne accepts ⟨offset, c :: (text ++ rest), groups⟩ =
        [⟨offset + 1, text ++ rest, groups⟩] := if_pos (hall c List.mem_cons_self)
    have hless : (text ++ rest).length < (c :: (text ++ rest)).length := Nat.lt_succ_self _
    have hmore := ih (fun d hd => hall d (List.mem_cons_of_mem _ hd)) (offset + 1)
    rw [List.cons_append, again_more, onward, hstep, List.flatMap_singleton, if_pos hless,
      List.head?_append, hmore, List.length_cons, Nat.add_assoc, Nat.add_comm 1]
    rfl

/-- A run is taken as a whole. -/
theorem takes_many (hall : ∀ c ∈ text, accepts c = true) (hrest : EndsRun accepts rest) :
    (many accepts).Takes text rest [] :=
  fun _ offset groups _ => ⟨groups, head?_again_readOne hall hrest groups offset, rfl⟩

theorem Takes.seq (h : first.Takes text (more ++ rest) words) (h' : second.Takes more rest others) :
    (seq first second).Takes (text ++ more) rest (others ++ words) :=
  @Takes.cons first [second] text more rest words others h h'

theorem takes_oneOrMore (hne : text ≠ []) (hall : ∀ c ∈ text, accepts c = true)
    (hrest : EndsRun accepts rest) : (oneOrMore accepts).Takes text rest [] := by
  obtain ⟨c, more, rfl⟩ := List.exists_cons_of_ne_nil hne
  exact (takes_one (hall c List.mem_cons_self) _).seq
    (takes_many (fun d hd => hall d (List.mem_cons_of_mem _ hd)) hrest)

theorem Takes.group (h : body.Takes text rest words) (index : Nat) :
    (group index body).Takes text rest ((index, text) :: words) := by
  intro source offset groups hsource
  obtain ⟨reached, hhead, hreached⟩ := h source offset groups hsource
  refine ⟨(index, ⟨offset, offset + text.length⟩) :: reached, ?_, ?_⟩
  · rw [readings, List.head?_map, hhead]
    rfl
  · have htext : Span.text ⟨offset, offset + text.length⟩ source = text := by
      unfold Span.text
      rw [hsource, Nat.add_sub_cancel_left, List.take_left]
    show (index, Span.text _ source) :: remembered source reached = _
    rw [htext, hreached]
    rfl

theorem Takes.either (h : first.Takes text rest words) (second : Pattern) :
    (either first second).Takes text rest words := by
  intro source offset groups hsource
  obtain ⟨reached, hhead, hreached⟩ := h source offset groups hsource
  refine ⟨reached, ?_, hreached⟩
  rw [readings, List.head?_append, hhead]
  rfl

theorem Takes.either_of_refuses (h : second.Takes text rest words)
    (hfirst : first.Refuses (text ++ rest)) :
    (Pattern.either first second).Takes text rest words := by
  intro source offset groups hsource
  obtain ⟨reached, hhead, hreached⟩ := h source offset groups hsource
  refine ⟨reached, ?_, hreached⟩
  rw [readings, hfirst, List.nil_append, hhead]

theorem Takes.optional (h : body.Takes text rest words) : (optional body).Takes text rest words :=
  h.either empty

theorem Refuses.takes_optional (h : body.Refuses rest) : (optional body).Takes [] rest [] :=
  Takes.either_of_refuses (takes_nil rest) h

/-- What a pattern takes that always reads something is not empty. -/
theorem Takes.ne_nil (h : pattern.Takes text rest words)
    (hgroup : pattern.roundsHoldNoGroup = true) (hreads : pattern.readsAlways = true) :
    text ≠ [] := by
  obtain ⟨reached, hhead, -⟩ := h (text ++ rest) 0 [] rfl
  have hless := ((mem_readings hgroup).mp (List.mem_of_mem_head? hhead)).offset_lt hreads
  rintro rfl
  exact Nat.lt_irrefl 0 hless

/-! ## Repetitions -/

/-- Whether a pattern takes a text round by round, until it cannot be read any more. -/
inductive TakesRounds (body : Pattern) (rest : List Char) : List Char → Prop where
  | stop (h : body.Refuses rest) : TakesRounds body rest []
  | round {text more : List Char} (h : body.Takes text (more ++ rest) []) (hne : text ≠ [])
    (hmore : TakesRounds body rest more) : TakesRounds body rest (text ++ more)

theorem length_lt_append (hne : text ≠ []) (rest : List Char) :
    rest.length < (text ++ rest).length := by
  have hpos := List.length_pos_iff.mpr hne
  rw [List.length_append]
  omega

theorem TakesRounds.again (h : TakesRounds body rest text) :
    ∀ (offset : Nat) (groups : List (Nat × Span)), source.drop offset = text ++ rest →
      ∃ reached, (Pattern.again .more body.readings ⟨offset, text ++ rest, groups⟩).head? =
          some ⟨offset + text.length, rest, reached⟩ ∧
        remembered source reached = remembered source groups := by
  -- On the rounds, from the front: the preferred reading takes one more before it stops.
  induction h with
  | stop h =>
    intro offset groups _
    refine ⟨groups, ?_, rfl⟩
    rw [List.nil_append, again_more, onward, h]
    rfl
  | @round text more h hne hmore ih =>
    intro offset groups hsource
    rw [List.append_assoc] at hsource
    obtain ⟨mid, hround, hmid⟩ := h source offset groups hsource
    obtain ⟨reached, hhead, hreached⟩ := ih _ mid (drop_of_append hsource)
    refine ⟨reached, ?_, hreached.trans hmid⟩
    have hless := length_lt_append hne (more ++ rest)
    have honward : (onward .more body.readings ⟨offset, text ++ (more ++ rest), groups⟩).head? =
        some ⟨offset + text.length + more.length, rest, reached⟩ :=
      head?_flatMap hround (by rw [if_pos hless, hhead])
    rw [List.append_assoc, again_more, List.head?_append, honward, List.length_append,
      Nat.add_assoc]
    rfl

/-- Rounds are taken until the pattern cannot be read any more. -/
theorem TakesRounds.takes (h : body.Takes text (more ++ rest) []) (hne : text ≠ [])
    (hmore : TakesRounds body rest more) : (rounds .more body).Takes (text ++ more) rest [] := by
  intro source offset groups hsource
  rw [List.append_assoc] at hsource
  obtain ⟨mid, hround, hmid⟩ := h source offset groups hsource
  obtain ⟨reached, hhead, hreached⟩ := hmore.again _ mid (drop_of_append hsource)
  refine ⟨reached, ?_, hreached.trans hmid⟩
  have hless := length_lt_append hne (more ++ rest)
  have hlength : offset + (text ++ more).length = offset + text.length + more.length := by
    rw [List.length_append, Nat.add_assoc]
  rw [readings, List.append_assoc, hlength]
  exact head?_flatMap hround (by rw [if_pos hless, hhead])

/-! ## The search -/

theorem lookup_remembered (source : List Char) (groups : List (Nat × Span)) (index : Nat) :
    (remembered source groups).lookup index = (groups.lookup index).map (·.text source) := by
  induction groups with
  | nil => rfl
  | cons entry groups ih =>
    rw [remembered, List.map_cons, List.lookup_cons, List.lookup_cons]
    split
    · rfl
    · exact ih

/-- **The search finds what the pattern takes.** -/
theorem Takes.matchAt? (hgroup : pattern.roundsHoldNoGroup = true)
    (h : pattern.Takes text rest words) {offset : Nat}
    (hsource : source.drop offset = text ++ rest) :
    ∃ found, pattern.matchAt? offset (text ++ rest) = some found ∧
      found.span.stop = offset + text.length ∧
        ∀ index, found.group? source index = words.lookup index := by
  obtain ⟨reached, hhead, hreached⟩ := h source offset [] hsource
  refine ⟨⟨⟨offset, offset + text.length⟩, reached⟩, ?_, rfl, fun index => ?_⟩
  · rw [matchAt?_eq_preferred hgroup, hhead]
    rfl
  · rw [Match.group?, ← lookup_remembered, hreached]
    exact congrArg (List.lookup index) (List.append_nil words)

theorem Refuses.matchAt? (hgroup : pattern.roundsHoldNoGroup = true) (h : pattern.Refuses text)
    (offset : Nat) : pattern.matchAt? offset text = none := by
  rw [matchAt?_eq_preferred hgroup, h]
  rfl

end FileLore.Pattern
