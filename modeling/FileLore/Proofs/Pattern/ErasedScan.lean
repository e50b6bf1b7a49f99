import FileLore.Proofs.Pattern.LineEnds
import FileLore.Proofs.Pattern.Words

/-!
# Scans of a text with carriage returns

A pattern that is read alike with and without carriage returns, wherever a search
can begin, finds the same matches in both texts (`ReadsAlike.allMatches`): what a
match remembers in the text without carriage returns is what it remembers in the
other text, less the carriage returns in there. Whether there are any can be told by
the form of the pattern (`remembersWithout`). Should it be read alike but where its
last match may begin, the matches are the same up to there
(`ReadsAlikeBefore.exists_allMatches`).
-/

namespace FileLore.Pattern

open Text

variable {pattern : Pattern} {source rest : List Char} {start stop : Progress} {c : Char}
  {index : Nat}

/-! ## Offsets -/

theorem erasedOffset_mono (source : List Char) {offset later : Nat} (h : offset ≤ later) :
    erasedOffset source offset ≤ erasedOffset source later := by
  obtain ⟨count, rfl⟩ := Nat.exists_eq_add_of_le h
  rw [erasedOffset_add]
  exact Nat.le_add_right _ _

/-- A place whose character is kept stays before the same places. -/
theorem erasedOffset_lt_iff {offset later : Nat}
    (hkept : erasedOffset source (offset + 1) = erasedOffset source offset + 1) :
    erasedOffset source offset < erasedOffset source later ↔ offset < later := by
  constructor
  · intro hless
    exact Nat.lt_of_not_le fun hle => absurd (erasedOffset_mono source hle) (by omega)
  · intro hless
    have hmono : erasedOffset source (offset + 1) ≤ erasedOffset source later :=
      erasedOffset_mono source hless
    omega

theorem drop_erasedOffset (source : List Char) (offset : Nat) :
    (withoutReturns source).drop (erasedOffset source offset) =
      withoutReturns (source.drop offset) := by
  have hsplit := congrArg withoutReturns (List.take_append_drop offset source)
  rw [withoutReturns_append] at hsplit
  rw [← hsplit, erasedOffset, List.drop_left]

/-- A stretch covers, without carriage returns, what it covered less the carriage returns. -/
theorem text_erasedSpan (source : List Char) (span : Span) :
    (erasedSpan source span).text (withoutReturns source) = withoutReturns (span.text source) := by
  obtain ⟨start, stop⟩ := span
  show ((withoutReturns source).drop (erasedOffset source start)).take
    (erasedOffset source stop - erasedOffset source start) =
      withoutReturns ((source.drop start).take (stop - start))
  rw [drop_erasedOffset]
  rcases Nat.le_total start stop with hle | hle
  · obtain ⟨count, rfl⟩ := Nat.exists_eq_add_of_le hle
    have hsplit := congrArg withoutReturns (List.take_append_drop count (source.drop start))
    rw [withoutReturns_append] at hsplit
    rw [erasedOffset_add, Nat.add_sub_cancel_left, Nat.add_sub_cancel_left, ← hsplit,
      List.take_left]
  · have hback := erasedOffset_mono source hle
    rw [Nat.sub_eq_zero_of_le hle, Nat.sub_eq_zero_of_le hback, List.take_zero, List.take_zero]
    rfl

/-! ## Matches -/

/-- What a match becomes when the carriage returns are taken away. -/
def erasedMatch (source : List Char) (hit : Match) : Match :=
  ⟨erasedSpan source hit.span, erasedGroups source hit.groups⟩

theorem group?_erasedMatch (source : List Char) (hit : Match) (index : Nat) :
    (erasedMatch source hit).group? (withoutReturns source) index =
      (hit.group? source index).map withoutReturns := by
  obtain ⟨span, groups⟩ := hit
  show ((erasedGroups source groups).lookup index).map _ = _
  rw [Match.group?, Option.map_map]
  induction groups with
  | nil => rfl
  | cons entry groups ih =>
    rw [erasedGroups, List.map_cons, List.lookup_cons, List.lookup_cons]
    split
    · exact congrArg some (text_erasedSpan source entry.2)
    · exact ih

/-- Whether carriage returns make no difference to what a search by the pattern finds at a place of
the text. -/
def AlikeAt (pattern : Pattern) (source : List Char) (offset : Nat) : Prop :=
  ((pattern.readings (placeAt source offset)).head?).map (erased source) =
    (pattern.readings (erased source (placeAt source offset))).head?

theorem AlikeAt.matchAt? (hholds : pattern.roundsHoldNoGroup = true) {offset : Nat}
    (h : pattern.AlikeAt source offset) :
    pattern.matchAt? (erasedOffset source offset) (withoutReturns (source.drop offset)) =
      (pattern.matchAt? offset (source.drop offset)).map (erasedMatch source) := by
  rw [matchAt?_eq_preferred hholds, matchAt?_eq_preferred hholds, Option.map_map]
  show ((pattern.readings (erased source (placeAt source offset))).head?).map _ =
    ((pattern.readings (placeAt source offset)).head?).map _
  rw [← h, Option.map_map]
  rfl

/-- Whether carriage returns make no difference to what a search by the pattern finds, but where it
finds, in the text with carriage returns, a match of a kind that is always the last one. -/
structure ReadsAlikeBefore (last : Match → Prop) (pattern : Pattern) (source : List Char) :
    Prop where
  holds : pattern.roundsHoldNoGroup = true
  refuses : ∀ rest, pattern.Refuses ('\r' :: rest)
  head : ∀ offset, pattern.AlikeAt source offset ∨ ∃ found,
    pattern.matchAt? offset (source.drop offset) = some found ∧ last found ∧
      pattern.matchesFrom found.span.stop (offset + 1) (source.drop (offset + 1)) = []

/-- Whether carriage returns make no difference to what a search by the pattern finds anywhere in
the text. -/
def ReadsAlike (pattern : Pattern) (source : List Char) : Prop :=
  pattern.ReadsAlikeBefore (fun _ => False) source

/-- **The matches are the same without carriage returns** up to where the last one may differ, from
any place on. -/
theorem ReadsAlikeBefore.exists_matchesFrom {last : Match → Prop}
    (h : pattern.ReadsAlikeBefore last source) :
    ∀ (rest : List Char) (offset resume : Nat), source.drop offset = rest →
      ∃ common final others,
        pattern.matchesFrom resume offset rest = common ++ final ∧
        pattern.matchesFrom (erasedOffset source resume) (erasedOffset source offset)
            (withoutReturns rest) = common.map (erasedMatch source) ++ others ∧
        (final = [] ∧ others = [] ∨ ∃ found, final = [found] ∧ last found) := by
  intro rest
  induction rest with
  | nil => exact fun _ _ _ => ⟨[], [], [], rfl, rfl, .inl ⟨rfl, rfl⟩⟩
  | cons c rest ih =>
    intro offset resume hrest
    have hlater : source.drop (offset + 1) = rest := by
      rw [← List.drop_drop, hrest]
      rfl
    have ih' (resume : Nat) := ih (offset + 1) resume hlater
    have hnext : erasedOffset source (offset + 1) =
        erasedOffset source offset + (withoutReturns [c]).length := by
      rw [erasedOffset_add, hrest]
      rfl
    by_cases hc : c = '\r'
    · -- No match begins at a carriage return, and the other text has no such place.
      subst hc
      have hsame : erasedOffset source (offset + 1) = erasedOffset source offset := hnext
      have hnone := (h.refuses rest).matchAt? h.holds offset
      have hpass : pattern.matchesFrom resume offset ('\r' :: rest) =
          pattern.matchesFrom resume (offset + 1) rest := by
        rw [Pattern.matchesFrom, hnone]
        split <;> rfl
      rw [hsame] at ih'
      rw [hpass, withoutReturns_return]
      exact ih' resume
    · -- Both scans go on by one character, and they pass over the same places.
      have hsucc : erasedOffset source (offset + 1) = erasedOffset source offset + 1 := by
        rw [hnext, withoutReturns_cons hc]
        rfl
      have hless := @erasedOffset_lt_iff source offset resume hsucc
      rw [withoutReturns_cons hc, Pattern.matchesFrom, Pattern.matchesFrom, ← hsucc]
      by_cases hskip : offset < resume
      · rw [if_pos hskip, if_pos (hless.mpr hskip)]
        exact ih' resume
      rw [if_neg hskip, if_neg (mt hless.mp hskip)]
      rcases h.head offset with halike | ⟨found, hfound, hfinal, hnone⟩
      · have hmatch := halike.matchAt? h.holds
        rw [hrest, withoutReturns_cons hc] at hmatch
        rw [hmatch]
        cases pattern.matchAt? offset (c :: rest) with
        | none => exact ih' resume
        | some found =>
          obtain ⟨common, final, others, heq, heq', hcase⟩ := ih' found.span.stop
          exact ⟨found :: common, final, others, congrArg _ heq, congrArg _ heq', hcase⟩
      · rw [hrest] at hfound
        rw [hlater] at hnone
        rw [hfound]
        exact ⟨[], [found], _, congrArg _ hnone, rfl, .inr ⟨found, rfl, hfinal⟩⟩

/-- **All matches are the same without carriage returns** up to where the last one may differ. -/
theorem ReadsAlikeBefore.exists_allMatches {last : Match → Prop}
    (h : pattern.ReadsAlikeBefore last source) : ∃ common final others,
      pattern.allMatches source = common ++ final ∧
      pattern.allMatches (withoutReturns source) = common.map (erasedMatch source) ++ others ∧
      (final = [] ∧ others = [] ∨ ∃ found, final = [found] ∧ last found) :=
  h.exists_matchesFrom source 0 0 rfl

theorem ReadsAlike.allMatches (h : pattern.ReadsAlike source) :
    pattern.allMatches (withoutReturns source) =
      (pattern.allMatches source).map (erasedMatch source) := by
  obtain ⟨common, final, others, heq, heq', ⟨rfl, rfl⟩ | ⟨found, -, hnever⟩⟩ := h.exists_allMatches
  · rw [heq, heq', List.append_nil, List.append_nil]
  · exact hnever.elim

/-- A pattern that ignores carriage returns is read alike with and without them. -/
theorem IgnoresReturns.readsAlike (h : pattern.IgnoresReturns)
    (hholds : pattern.roundsHoldNoGroup = true) (hrefuses : ∀ rest, pattern.Refuses ('\r' :: rest))
    (hsource : ReturnsEndLines source) : pattern.ReadsAlike source := by
  refine ⟨hholds, hrefuses, fun offset => .inl ?_⟩
  rw [AlikeAt, ← List.head?_map]
  exact (h source (placeAt source offset) hsource rfl).head?

/-- A pattern that begins with one of a few words is not read at another character. -/
theorem BeginsWith.refuses {words : List String} (h : pattern.BeginsWith words)
    (hholds : pattern.roundsHoldNoGroup = true)
    (hwords : ∀ word ∈ words, word.toList ≠ [] ∧ c ∉ word.toList) (rest : List Char) :
    pattern.Refuses (c :: rest) := by
  rw [refuses_iff hholds]
  rintro start stop hstart hread
  obtain ⟨word, hmem, hbegin⟩ := h start stop hread
  obtain ⟨hne, hnot⟩ := hwords word hmem
  obtain ⟨d, more, hword⟩ := List.exists_cons_of_ne_nil hne
  rw [hstart, hword] at hbegin
  rw [hword, (List.cons_prefix_cons.mp hbegin).1] at hnot
  exact hnot List.mem_cons_self

/-! ## What is remembered -/

/-- Whether the form of the pattern shows that it does not read a character. -/
def avoids (c : Char) : Pattern → Bool
  | one accepts | many accepts | few accepts => !accepts c
  | seq first second | either first second => first.avoids c && second.avoids c
  | rounds _ body | group _ body => body.avoids c
  | empty | check _ => true

/-- Whether the form of the pattern shows that a character is not in what it remembers under an
index. -/
def remembersWithout (index : Nat) (c : Char) : Pattern → Bool
  | group other body => (other != index || body.avoids c) && body.remembersWithout index c
  | seq first second | either first second =>
    first.remembersWithout index c && second.remembersWithout index c
  | rounds _ body => body.remembersWithout index c
  | _ => true

theorem Reads.avoids : ∀ {pattern : Pattern} {start stop : Progress},
    pattern.avoids c = true → pattern.Reads start stop →
      ∃ text, start.rest = text ++ stop.rest ∧ c ∉ text := by
  have hrun {accepts : Char → Bool} {text : List Char} (hc : (!accepts c) = true)
      (hall : ∀ d ∈ text, accepts d = true) : c ∉ text := by
    intro hmem
    rw [hall c hmem] at hc
    cases hc
  intro pattern
  induction pattern with
  | empty =>
    intro start stop _ hread
    subst hread
    exact ⟨[], rfl, List.not_mem_nil⟩
  | one accepts =>
    intro start stop hc hread
    obtain ⟨d, rest, hrest, hd, rfl⟩ := hread
    exact ⟨[d], hrest, hrun hc (List.forall_mem_singleton.mpr hd)⟩
  | many accepts | few accepts =>
    intro start stop hc hread
    obtain ⟨text, rest, hrest, hall, rfl⟩ := hread
    exact ⟨text, hrest, hrun hc hall⟩
  | seq first second ihFirst ihSecond =>
    intro start stop hc hread
    rw [Pattern.avoids, Bool.and_eq_true] at hc
    obtain ⟨mid, hfirst, hsecond⟩ := hread
    obtain ⟨text, hstart, htext⟩ := ihFirst hc.1 hfirst
    obtain ⟨more, hmid, hmore⟩ := ihSecond hc.2 hsecond
    exact ⟨text ++ more, by rw [hstart, hmid, List.append_assoc], by simp [htext, hmore]⟩
  | either first second ihFirst ihSecond =>
    intro start stop hc hread
    rw [Pattern.avoids, Bool.and_eq_true] at hc
    rcases hread with hfirst | hsecond
    · exact ihFirst hc.1 hfirst
    · exact ihSecond hc.2 hsecond
  | rounds preference body ih =>
    intro start stop hc hread
    induction hread with
    | single hround => exact ih hc hround
    | tail _ hround ih' =>
      obtain ⟨text, hstart, htext⟩ := ih'
      obtain ⟨more, hmid, hmore⟩ := ih hc hround
      exact ⟨text ++ more, by rw [hstart, hmid, List.append_assoc], by simp [htext, hmore]⟩
  | group index body ih =>
    intro start stop hc hread
    obtain ⟨mid, hmid, rfl⟩ := hread
    have htext := ih hc hmid
    exact htext
  | check holds =>
    intro start stop _ hread
    obtain ⟨-, rfl⟩ := hread
    exact ⟨[], rfl, List.not_mem_nil⟩

/-- Whether no stretch of the text that has been remembered under an index holds a character. -/
def HoldsNone (source : List Char) (index : Nat) (c : Char) (groups : List (Nat × Span)) : Prop :=
  ∀ span, groups.lookup index = some span → c ∉ span.text source

/-- **What is remembered does not hold the character.** -/
theorem Reads.remembersWithout : ∀ {pattern : Pattern} {start stop : Progress},
    pattern.remembersWithout index c = true → pattern.Reads start stop → StandsIn source start →
      HoldsNone source index c start.groups → HoldsNone source index c stop.groups := by
  intro pattern
  induction pattern with
  | empty =>
    intro start stop _ hread _
    subst hread
    exact id
  | one accepts =>
    intro start stop _ hread _
    obtain ⟨d, rest, -, -, rfl⟩ := hread
    exact id
  | many accepts | few accepts =>
    intro start stop _ hread _
    obtain ⟨text, rest, -, -, rfl⟩ := hread
    exact id
  | seq first second ihFirst ihSecond =>
    intro start stop h hread hplace hgroups
    rw [Pattern.remembersWithout, Bool.and_eq_true] at h
    obtain ⟨mid, hfirst, hsecond⟩ := hread
    exact ihSecond h.2 hsecond (hplace.ahead hfirst.ahead) (ihFirst h.1 hfirst hplace hgroups)
  | either first second ihFirst ihSecond =>
    intro start stop h hread
    rw [Pattern.remembersWithout, Bool.and_eq_true] at h
    rcases hread with hfirst | hsecond
    · exact ihFirst h.1 hfirst
    · exact ihSecond h.2 hsecond
  | rounds preference body ih =>
    intro start stop h hread hplace hgroups
    induction hread with
    | single hround => exact ih h hround hplace hgroups
    | @tail mid stop hrounds hround ih' =>
      have hmid : (rounds preference body).Reads start mid := hrounds
      exact ih h hround (hplace.ahead hmid.ahead) ih'
  | group other body ih =>
    intro start stop h hread hplace hgroups span hspan
    rw [Pattern.remembersWithout, Bool.and_eq_true, Bool.or_eq_true] at h
    obtain ⟨mid, hmid, rfl⟩ := hread
    rw [Progress.remember, List.lookup_cons] at hspan
    split at hspan
    next heq =>
      have havoids := h.1.resolve_left (by simp [eq_of_beq heq])
      obtain ⟨text, hstart, htext⟩ := hmid.avoids havoids
      obtain rfl := Option.some.inj hspan
      have hlength := hmid.ahead.length
      rw [hstart, List.length_append] at hlength
      have hcount : mid.offset - start.offset = text.length := by omega
      rwa [Span.text, hplace, hstart, hcount, List.take_left]
    next => exact ih h.2 hmid hplace hgroups span hspan
  | check holds =>
    intro start stop _ hread _
    obtain ⟨-, rfl⟩ := hread
    exact id

/-- What a match remembers does not hold the character. -/
theorem notMem_group? (hholds : pattern.roundsHoldNoGroup = true)
    (hreads : pattern.readsAlways = true) (h : pattern.remembersWithout index c = true)
    {hit : Match} (hhit : hit ∈ pattern.allMatches source) {text : List Char}
    (htext : hit.group? source index = some text) : c ∉ text := by
  have hscan := (isScan_iff hholds hreads).mpr (rfl : pattern.allMatches source = _)
  obtain ⟨stop, hstop, -, hgroups⟩ := (hscan.preferred hit hhit).reads hholds
  obtain ⟨span, hspan, rfl⟩ := Option.map_eq_some_iff.mp htext
  rw [hgroups] at hspan
  exact hstop.remembersWithout h rfl (fun _ hnone => nomatch hnone) span hspan

/-- What a match remembers, if no carriage return is in there, is the same without them. -/
theorem group?_erasedMatch_eq (hholds : pattern.roundsHoldNoGroup = true)
    (hreads : pattern.readsAlways = true) (h : pattern.remembersWithout index '\r' = true)
    {hit : Match} (hhit : hit ∈ pattern.allMatches source) :
    (erasedMatch source hit).group? (withoutReturns source) index = hit.group? source index := by
  rw [group?_erasedMatch]
  cases htext : hit.group? source index with
  | none => rfl
  | some text =>
    exact congrArg some (withoutReturns_of_notMem (notMem_group? hholds hreads h hhit htext))

end FileLore.Pattern
