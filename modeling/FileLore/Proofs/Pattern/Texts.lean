import FileLore.Proofs.Pattern.Scan
import FileLore.Proofs.Pattern.Taken

/-!
# Patterns that stand for a few texts

A pattern that is put together from given characters, alternatives and optional
parts reads the texts of a finite list and no others (`ReadsJust`). The search
finds a pattern if it can be read somewhere (`isFoundIn_iff`), which for such a
pattern is that one of its texts occurs in the source.
-/

namespace FileLore.Pattern

variable {pattern first second body : Pattern} {parts : List Pattern} {accepts : Char → Bool}
  {source text : List Char} {texts others : List (List Char)}

/-! ## Where a pattern is found -/

/-- Whether the pattern can be read somewhere in the source. -/
def OccursIn (pattern : Pattern) (source : List Char) : Prop :=
  ∃ before rest stop, source = before ++ rest ∧ pattern.Reads ⟨before.length, rest, []⟩ stop

theorem isSome_matchAt?_iff (h : pattern.roundsHoldNoGroup = true) {offset : Nat} :
    (pattern.matchAt? offset text).isSome ↔ ∃ stop, pattern.Reads ⟨offset, text, []⟩ stop := by
  rw [matchAt?_eq_preferred h, Option.isSome_map, List.isSome_head?, ne_eq,
    List.eq_nil_iff_forall_not_mem, not_forall_not]
  exact exists_congr fun stop => mem_readings h

theorem isSome_firstMatchFrom?_iff (h : pattern.roundsHoldNoGroup = true) (text : List Char) :
    ∀ offset : Nat, (pattern.firstMatchFrom? offset text).isSome ↔
      ∃ before rest stop, text = before ++ rest ∧
        pattern.Reads ⟨offset + before.length, rest, []⟩ stop := by
  induction text with
  | nil =>
    intro offset
    rw [firstMatchFrom?, isSome_matchAt?_iff h]
    constructor
    · rintro ⟨stop, hread⟩
      exact ⟨[], [], stop, rfl, hread⟩
    · rintro ⟨before, rest, stop, hsplit, hread⟩
      obtain ⟨rfl, rfl⟩ := List.append_eq_nil_iff.mp hsplit.symm
      exact ⟨stop, hread⟩
  | cons c text ih =>
    intro offset
    rw [firstMatchFrom?, Option.orElse_eq_or, Option.isSome_or, Bool.or_eq_true,
      isSome_matchAt?_iff h, ih]
    constructor
    · rintro (⟨stop, hread⟩ | ⟨before, rest, stop, rfl, hread⟩)
      · exact ⟨[], c :: text, stop, rfl, hread⟩
      · refine ⟨c :: before, rest, stop, rfl, ?_⟩
        rwa [List.length_cons, Nat.add_comm before.length, ← Nat.add_assoc]
    · rintro ⟨before, rest, stop, hsplit, hread⟩
      cases before with
      | nil =>
        obtain rfl : c :: text = rest := hsplit
        exact .inl ⟨stop, hread⟩
      | cons d before =>
        obtain ⟨rfl, rfl⟩ := List.cons.inj hsplit
        refine .inr ⟨before, rest, stop, rfl, ?_⟩
        rwa [List.length_cons, Nat.add_comm before.length, ← Nat.add_assoc] at hread

/-- **The search finds a pattern** just if it can be read somewhere. -/
theorem isFoundIn_iff (h : pattern.roundsHoldNoGroup = true) :
    pattern.isFoundIn source = true ↔ pattern.OccursIn source := by
  rw [isFoundIn, firstMatch?, isSome_firstMatchFrom?_iff h]
  simp only [Nat.zero_add]
  rfl

/-! ## Patterns for given texts -/

/-- Whether the pattern reads these texts and no others, and remembers nothing. -/
def ReadsJust (pattern : Pattern) (texts : List (List Char)) : Prop :=
  ∀ start stop : Progress, pattern.Reads start stop ↔
    ∃ text ∈ texts, ∃ rest, start.rest = text ++ rest ∧ stop = start.moved text.length rest

theorem readsJust_empty : empty.ReadsJust [[]] := by
  intro start stop
  simp only [List.mem_singleton, exists_eq_left, List.nil_append]
  constructor
  · rintro rfl
    exact ⟨stop.rest, rfl, rfl⟩
  · rintro ⟨rest, rfl, rfl⟩
    rfl

theorem readsJust_one (c : Char) : (one (· == c)).ReadsJust [[c]] := by
  intro start stop
  simp only [List.mem_singleton, exists_eq_left]
  constructor
  · rintro ⟨d, rest, hrest, hd, rfl⟩
    obtain rfl := eq_of_beq hd
    exact ⟨rest, hrest, rfl⟩
  · rintro ⟨rest, hrest, rfl⟩
    exact ⟨c, rest, hrest, beq_self_eq_true c, rfl⟩

theorem ReadsJust.cons (h : first.ReadsJust texts) (h' : (sequence parts).ReadsJust others) :
    (sequence (first :: parts)).ReadsJust (texts.flatMap fun text => others.map (text ++ ·)) := by
  intro start stop
  rw [reads_sequence_cons]
  constructor
  · rintro ⟨mid, hfirst, hparts⟩
    obtain ⟨text, htext, rest, hrest, rfl⟩ := (h start mid).mp hfirst
    obtain ⟨other, hother, more, hmore, rfl⟩ := (h' _ stop).mp hparts
    have hcut : rest = other ++ more := hmore
    refine ⟨text ++ other, List.mem_flatMap.mpr ⟨text, htext, List.mem_map_of_mem hother⟩, more,
      by rw [hrest, hcut, List.append_assoc], ?_⟩
    rw [List.length_append, Progress.moved, Progress.moved, Progress.moved, Nat.add_assoc]
  · rintro ⟨both, hboth, rest, hrest, rfl⟩
    obtain ⟨text, htext, hboth⟩ := List.mem_flatMap.mp hboth
    obtain ⟨other, hother, rfl⟩ := List.mem_map.mp hboth
    rw [List.append_assoc] at hrest
    refine ⟨_, (h start _).mpr ⟨text, htext, other ++ rest, hrest, rfl⟩,
      (h' _ _).mpr ⟨other, hother, rest, rfl, ?_⟩⟩
    rw [List.length_append, Progress.moved, Progress.moved, Progress.moved, Nat.add_assoc]

theorem ReadsJust.either (h : first.ReadsJust texts) (h' : second.ReadsJust others) :
    (either first second).ReadsJust (texts ++ others) := by
  intro start stop
  simp only [List.mem_append, or_and_right, exists_or]
  exact or_congr (h start stop) (h' start stop)

theorem ReadsJust.optional (h : body.ReadsJust texts) :
    (optional body).ReadsJust (texts ++ [[]]) :=
  h.either readsJust_empty

theorem readsJust_literal (word : String) : (literal word).ReadsJust [word.toList] := by
  unfold literal
  induction word.toList with
  | nil => exact readsJust_empty
  | cons c chars ih => exact (readsJust_one c).cons ih

/-! ## Where their texts stand -/

/-- Behind any run of characters, a pattern for given texts is found where one of them occurs. -/
theorem ReadsJust.occursIn_many_cons (h : (sequence parts).ReadsJust texts) :
    (sequence (many accepts :: parts)).OccursIn source ↔ ∃ text ∈ texts, text <:+: source := by
  constructor
  · rintro ⟨before, rest, stop, rfl, hread⟩
    obtain ⟨mid, hmany, hparts⟩ := reads_sequence_cons.mp hread
    obtain ⟨run, -, hrun⟩ := hmany.many
    obtain ⟨text, htext, after, hafter, -⟩ := (h mid stop).mp hparts
    refine ⟨text, htext, before ++ run, after, ?_⟩
    rw [hafter] at hrun
    simp only [List.append_assoc]
    exact congrArg (before ++ ·) hrun.symm
  · rintro ⟨text, htext, before, after, rfl⟩
    refine ⟨before, text ++ after, _, List.append_assoc .., reads_sequence_cons.mpr
      ⟨_, ⟨[], text ++ after, rfl, fun _ hmem => absurd hmem List.not_mem_nil, rfl⟩,
        (h _ _).mpr ⟨text, htext, after, rfl, rfl⟩⟩⟩

/-- A pattern for given texts at the end is found where the source ends in one of them. -/
theorem ReadsJust.occursIn_atEnd (h : pattern.ReadsJust texts) :
    (seq pattern atEnd).OccursIn source ↔ ∃ text ∈ texts, text <:+ source := by
  constructor
  · rintro ⟨before, rest, stop, rfl, mid, hread, hend, rfl⟩
    obtain ⟨text, htext, after, hafter, hmid⟩ := (h _ stop).mp hread
    have hnone : after = [] := by
      rw [hmid] at hend
      exact List.isEmpty_iff.mp hend
    rw [hnone, List.append_nil] at hafter
    exact ⟨text, htext, before, congrArg (before ++ ·) hafter.symm⟩
  · rintro ⟨text, htext, before, rfl⟩
    exact ⟨before, text, _, rfl, _,
      (h _ _).mpr ⟨text, htext, [], (List.append_nil text).symm, rfl⟩, rfl, rfl⟩

end FileLore.Pattern
