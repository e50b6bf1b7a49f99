import FileLore.Proofs.Pattern.Scan
import FileLore.Proofs.Source.MarkerText

/-!
# Patterns of markers read outright

The pattern of a form of marker finds on a line what the form does when it is told
without patterns (`textOn?_eq`). A pattern hands on the places that it can read to,
the preferred ones first, to what follows it. So what is to be done at the end of a
text is followed back through the parts of the pattern, from the last to the first,
each part making of it what is to be done at the place before (`Does`).
-/

namespace FileLore

open Text

namespace Pattern

variable {β : Type} {source text : List Char} {pattern first second : Pattern}
  {accept : Progress → Option β} {result : List Char → Option β}

/-- The first result among the places that a pattern can read to. -/
def firstResult (pattern : Pattern) (accept : Progress → Option β) (place : Progress) : Option β :=
  (pattern.ways place).findSome? accept

theorem firstResult_seq :
    (seq first second).firstResult accept = first.firstResult (second.firstResult accept) :=
  funext fun place => findSome?_flatMap_eq second.ways accept (first.ways place)

theorem firstResult_sequence_cons (first : Pattern) (others : List Pattern) :
    (sequence (first :: others)).firstResult accept =
      first.firstResult ((sequence others).firstResult accept) := by
  cases others with
  | nil =>
    funext place
    show _ = (first.ways place).findSome? fun next => [next].findSome? accept
    simp only [List.findSome?_singleton]
    rfl
  | cons next more => exact firstResult_seq

/-- The place in a source before the text with which it ends. -/
def placeBefore (source text : List Char) : Progress := ⟨source.length - text.length, text, []⟩

/-- Whether at every place of a source the same is done as with the text from there on. -/
def Does (source : List Char) (accept : Progress → Option β)
    (result : List Char → Option β) : Prop :=
  ∀ text, text <:+ source → accept (placeBefore source text) = result text

theorem placeBefore_moved {c : Char} (h : c :: text <:+ source) :
    (placeBefore source (c :: text)).moved 1 text = placeBefore source text := by
  have hlength := h.length_le
  rw [List.length_cons] at hlength
  have hoffset : source.length - (text.length + 1) + 1 = source.length - text.length := by omega
  show (⟨source.length - (text.length + 1) + 1, text, []⟩ : Progress) = _
  rw [hoffset]
  rfl

/-! ## Parts of patterns -/

theorem Does.one (h : Does source accept result) (accepts : Char → Bool) :
    Does source ((one accepts).firstResult accept) fun
      | [] => none
      | c :: text => if accepts c then result text else none := by
  intro text htext
  cases text with
  | nil => rfl
  | cons c text =>
    show ((if accepts c then [(placeBefore source (c :: text)).moved 1 text] else []).findSome?
      accept) = _
    by_cases hc : accepts c = true
    · rw [if_pos hc, List.findSome?_singleton, placeBefore_moved htext,
        h text ((List.suffix_cons c text).trans htext)]
      exact (if_pos hc).symm
    · rw [if_neg hc]
      exact (if_neg hc).symm

/-- Given characters are followed by what follows them. -/
theorem Does.literal (h : Does source accept result) (start : List Char) :
    Does source ((sequence (start.map fun c => .one (· == c))).firstResult accept) fun text =>
      (afterStart? start text).bind result := by
  induction start with
  | nil =>
    intro text htext
    show [placeBefore source text].findSome? accept = _
    rw [List.findSome?_singleton]
    exact h text htext
  | cons a start ih =>
    intro text htext
    rw [List.map_cons, firstResult_sequence_cons, ih.one _ text htext]
    cases text with
    | nil => rfl
    | cons b text =>
      dsimp only
      rw [afterStart?]
      by_cases hab : a = b
      · rw [if_pos hab, if_pos (beq_iff_eq.mpr hab.symm)]
      · rw [if_neg hab, if_neg (fun heq => hab (beq_iff_eq.mp heq).symm)]
        rfl

/-- A keyword in capitals is followed by what follows it in any case. -/
theorem Does.keyword (h : Does source accept result) (tag : List Char)
    (htag : ∀ letter ∈ tag, IsCapital letter) :
    Does source ((sequence (tag.map fun c => .one (isCaseOf c))).firstResult accept) fun text =>
      (MarkerForm.afterSpelling? tag text).bind result := by
  induction tag with
  | nil =>
    intro text htext
    show [placeBefore source text].findSome? accept = _
    rw [List.findSome?_singleton]
    exact h text htext
  | cons letter tag ih =>
    intro text htext
    have hrest := ih fun other hother => htag other (List.mem_cons_of_mem _ hother)
    rw [List.map_cons, firstResult_sequence_cons, hrest.one _ text htext]
    cases text with
    | nil => rfl
    | cons c text =>
      dsimp only
      have hcase : isCaseOf letter c = true ↔ c ∈ spellings letter :=
        isCaseOf_iff (htag letter List.mem_cons_self)
      rw [MarkerForm.afterSpelling?]
      by_cases hc : c ∈ spellings letter
      · rw [if_pos hc, if_pos (hcase.mpr hc)]
      · rw [if_neg hc, if_neg (mt hcase.mp hc)]
        rfl

theorem findSome?_longestFirst (h : Does source accept result) (text : List Char) :
    text <:+ source → ∀ nearer : List Progress,
      (longestFirst isBlank nearer (source.length - text.length) [] text).findSome? accept =
        ((MarkerForm.behindBlanks text).findSome? result).or (nearer.findSome? accept) := by
  induction text with
  | nil =>
    intro htext nearer
    rw [longestFirst, MarkerForm.behindBlanks, findSome?_cons_eq_or, List.findSome?_singleton]
    exact congrArg (Option.or · _) (h [] htext)
  | cons c rest ih =>
    intro htext nearer
    have hhere : (placeBefore source (c :: rest) :: nearer).findSome? accept =
        (result (c :: rest)).or (nearer.findSome? accept) := by
      rw [findSome?_cons_eq_or, h _ htext]
    have hoffset : source.length - (c :: rest).length + 1 = source.length - rest.length :=
      congrArg Progress.offset (placeBefore_moved htext)
    rw [longestFirst, MarkerForm.behindBlanks]
    by_cases hc : isBlank c = true
    · rw [if_pos hc, if_pos hc, hoffset, ih ((List.suffix_cons c rest).trans htext),
        List.findSome?_append, List.findSome?_singleton, Option.or_assoc]
      exact congrArg (Option.or _) hhere
    · rw [if_neg hc, if_neg hc, List.findSome?_singleton]
      exact hhere

/-- White space is skipped, and given back one character at a time. -/
theorem Does.blanks (h : Does source accept result) :
    Does source ((many isBlank).firstResult accept) fun text =>
      (MarkerForm.behindBlanks text).findSome? result := by
  intro text htext
  have hall := findSome?_longestFirst h text htext []
  rw [List.findSome?_nil, Option.or_none] at hall
  exact hall

/-- A colon is read if there is one and that leads on. -/
theorem Does.colon (h : Does source accept result) :
    Does source ((optional (.literal ":")).firstResult accept) fun text =>
      ((afterStart? [':'] text).bind result).or (result text) := by
  intro text htext
  have hread := h.literal [':'] text htext
  show (((Pattern.literal ":").ways (placeBefore source text)) ++
    [placeBefore source text]).findSome? accept = _
  rw [List.findSome?_append, List.findSome?_singleton, h text htext]
  exact congrArg (Option.or · _) hread

/-! ## The text at the end -/

/-- The text of the group in which the pattern of a marker remembers its text. -/
def captured (source : List Char) (place : Progress) : Option (List Char) :=
  (place.groups.lookup 1).map (·.text source)

/-- A stretch that begins where the rest of a source does is the beginning of this rest. -/
theorem Span.text_eq (h : text <:+ source) (count : Nat) :
    Span.text ⟨source.length - text.length, source.length - text.length + count⟩ source =
      text.take count := by
  unfold Span.text
  rw [← List.suffix_iff_eq_drop.mp h, Nat.add_sub_cancel_left]

theorem longestFirst_head (accepts : Char → Bool) (groups : List (Nat × Span)) (text : List Char)
    (hall : ∀ c ∈ text, accepts c = true) :
    ∀ offset nearer, ∃ others, longestFirst accepts nearer offset groups text =
      ⟨offset + text.length, [], groups⟩ :: others := by
  induction text with
  | nil => exact fun _ nearer => ⟨nearer, rfl⟩
  | cons c rest ih =>
    intro offset nearer
    rw [longestFirst, if_pos (hall c List.mem_cons_self)]
    obtain ⟨others, heq⟩ := ih (fun d hd => hall d (List.mem_cons_of_mem _ hd)) (offset + 1)
      (⟨offset, c :: rest, groups⟩ :: nearer)
    refine ⟨others, ?_⟩
    rw [heq, List.length_cons, Nat.add_assoc, Nat.add_comm 1]

theorem findSome?_nearestFirst {accepts : Char → Bool} {groups : List (Nat × Span)}
    (take : Nat → β) (haccept : ∀ place, accept place =
      if MarkerForm.closer.isPrefixOf place.rest then some (take place.offset) else none)
    (text : List Char) (hall : ∀ c ∈ text, accepts c = true) :
    ∀ offset, (nearestFirst accepts offset groups text).findSome? accept =
      (MarkerForm.beforeCloser? text).map fun before => take (offset + before.length) := by
  induction text with
  | nil =>
    intro offset
    rw [nearestFirst, List.findSome?_singleton, haccept]
    rfl
  | cons c rest ih =>
    intro offset
    rw [nearestFirst, findSome?_cons_eq_or, haccept, MarkerForm.beforeCloser?,
      if_pos (hall c List.mem_cons_self), ih fun d hd => hall d (List.mem_cons_of_mem _ hd)]
    dsimp only
    by_cases hcloser : MarkerForm.closer.isPrefixOf (c :: rest) = true
    · rw [if_pos hcloser, if_pos hcloser]
      rfl
    · rw [if_neg hcloser, if_neg hcloser, Option.none_or, Option.map_map]
      refine congrArg (Option.map · _) (funext fun before => ?_)
      show _ = take (offset + (before.length + 1))
      rw [Nat.add_assoc, Nat.add_comm 1]

/-- The end of a comment is read where it stands, and leaves what was remembered. -/
theorem firstResult_closer (source : List Char) (place : Progress) :
    (Pattern.literal "*/").firstResult (captured source) place =
      if MarkerForm.closer.isPrefixOf place.rest then captured source place else none := by
  obtain ⟨offset, rest, groups⟩ := place
  show (((one (· == '*')).ways ⟨offset, rest, groups⟩).flatMap (one (· == '/')).ways).findSome?
    (captured source) = _
  rw [findSome?_flatMap_eq]
  cases rest with
  | nil => rfl
  | cons c rest =>
    by_cases hc : c = '*'
    · cases rest with
      | nil =>
        subst hc
        rfl
      | cons d rest =>
        by_cases hd : d = '/'
        · simp [ways, Progress.moved, MarkerForm.closer, List.isPrefixOf, captured, hc, hd]
        · simp [ways, Progress.moved, MarkerForm.closer, List.isPrefixOf, hc, hd, Ne.symm hd]
    · simp [ways, Progress.moved, MarkerForm.closer, List.isPrefixOf, hc, Ne.symm hc]

/-- A character and what is read behind it, remembered as the text. -/
theorem firstResult_group_one (accepts : Char → Bool) {c : Char} {rest : List Char}
    (hc : accepts c = true) (offset : Nat) :
    (group 1 (seq (one accepts) second)).firstResult accept ⟨offset, c :: rest, []⟩ =
      (second.ways ⟨offset + 1, rest, []⟩).findSome? fun stop =>
        accept { stop with groups := (1, ⟨offset, stop.offset⟩) :: stop.groups } := by
  show (((if accepts c then [(⟨offset + 1, rest, []⟩ : Progress)] else []).flatMap second.ways).map
    (Progress.remember 1 ⟨offset, c :: rest, []⟩)).findSome? accept = _
  rw [if_pos hc, List.flatMap_singleton, List.findSome?_map]
  rfl

/-- The end of the pattern takes what the form takes. -/
theorem does_remainder (form : MarkerForm) (hline : '\n' ∉ source) :
    Does source ((MarkerForm.remainder form.closed).firstResult (captured source)) form.taken? := by
  intro text htext
  have hall : ∀ c ∈ text, (c != '\n') = true := by
    intro c hc
    rw [bne_iff_ne]
    rintro rfl
    exact hline (htext.subset hc)
  cases text with
  | nil =>
    cases hclosed : form.closed <;> rfl
  | cons c rest =>
    have hrest : ∀ d ∈ rest, (d != '\n') = true := fun d hd => hall d (List.mem_cons_of_mem _ hd)
    -- What is remembered when as many more characters have been read as `count` says.
    have htake (count : Nat) : Span.text ⟨source.length - (c :: rest).length,
        source.length - (c :: rest).length + 1 + count⟩ source = c :: rest.take count := by
      rw [Nat.add_assoc, Span.text_eq htext, Nat.add_comm 1, List.take_succ_cons]
    rw [MarkerForm.taken?]
    by_cases hclosed : form.closed = true
    · rw [MarkerForm.remainder, if_pos hclosed, if_pos hclosed, firstResult_seq, placeBefore,
        firstResult_group_one (· != '\n') (hall c List.mem_cons_self)]
      show (nearestFirst (· != '\n') _ _ rest).findSome? _ = _
      have haccept (stop : Progress) : (Pattern.literal "*/").firstResult (captured source)
          { stop with
            groups := (1, ⟨source.length - (c :: rest).length, stop.offset⟩) :: stop.groups } =
          if MarkerForm.closer.isPrefixOf stop.rest then
            some (Span.text ⟨source.length - (c :: rest).length, stop.offset⟩ source)
          else none := by
        rw [firstResult_closer]
        rfl
      rw [findSome?_nearestFirst
        (fun stop => Span.text ⟨source.length - (c :: rest).length, stop⟩ source) haccept rest
        hrest]
      refine Option.map_congr fun before hbefore => ?_
      rw [htake, ← List.prefix_iff_eq_take.mp (MarkerForm.beforeCloser?_isPrefix hbefore)]
    · rw [MarkerForm.remainder, if_neg hclosed, if_neg hclosed, placeBefore, oneOrMore,
        firstResult_group_one (· != '\n') (hall c List.mem_cons_self)]
      obtain ⟨others, hlongest⟩ := longestFirst_head (· != '\n') [] rest hrest
        (source.length - (c :: rest).length + 1) []
      show (longestFirst (· != '\n') [] _ _ rest).findSome? _ = _
      rw [hlongest, findSome?_cons_eq_or]
      show (some (Span.text _ source)).or _ = _
      rw [htake, List.take_length]
      rfl

/-! ## First results in lists -/

/-- Going on from the first result is the first result of going on, if one can always go on. -/
theorem findSome?_bind {α γ δ : Type} {f : α → Option γ} {g : γ → Option δ} {items : List α}
    (h : ∀ item ∈ items, ∀ found, f item = some found → (g found).isSome) :
    (items.findSome? f).bind g = items.findSome? fun item => (f item).bind g := by
  induction items with
  | nil => rfl
  | cons item rest ih =>
    rw [findSome?_cons_eq_or, findSome?_cons_eq_or,
      ← ih fun other hother => h other (List.mem_cons_of_mem _ hother)]
    cases hfound : f item with
    | none => rfl
    | some found =>
      obtain ⟨last, hlast⟩ := Option.isSome_iff_exists.mp (h item List.mem_cons_self found hfound)
      rw [Option.some_or, Option.bind_some, hlast, Option.some_or]

end Pattern

namespace MarkerForm

open Pattern

variable {form : MarkerForm} {source line text : List Char}

/-! ## The pattern of a form -/

/-- What begins with no white space is found behind all of it. -/
theorem findSome?_behindBlanks {β : Type} {result : List Char → Option β}
    (h : ∀ c rest, isBlank c = true → result (c :: rest) = none) (text : List Char) :
    (behindBlanks text).findSome? result = result (trimStart text) := by
  induction text with
  | nil => exact List.findSome?_singleton
  | cons c rest ih =>
    rw [behindBlanks, trimStart, List.dropWhile_cons]
    by_cases hc : isBlank c = true
    · rw [if_pos hc, if_pos hc, List.findSome?_append, List.findSome?_singleton, h c rest hc,
        Option.or_none, ih]
      rfl
    · rw [if_neg hc, if_neg hc, List.findSome?_singleton]

theorem afterSpelling?_of_isBlank (kind : MarkerKind) {c : Char} (hc : isBlank c = true)
    (rest : List Char) : afterSpelling? kind.tag.toList (c :: rest) = none := by
  cases hafter : afterSpelling? kind.tag.toList (c :: rest) with
  | none => rfl
  | some after =>
    obtain ⟨word, hword, heq⟩ := afterSpelling?_eq_some_iff.mp hafter
    obtain ⟨d, more, rfl, hd⟩ := hword.head
    rw [(List.cons.inj heq).1, hd] at hc
    cases hc

theorem isCapital_of_mem_tag (kind : MarkerKind) :
    ∀ letter ∈ kind.tag.toList, IsCapital letter := by
  cases kind <;> exact List.all_iff_forall_prop.mp (by decide)

/-- Trying a colon and white space is trying the beginnings of the text in their order. -/
theorem textBehind?_eq (form : MarkerForm) (after : List Char) :
    form.textBehind? after =
      ((afterStart? [':'] after).bind fun rest => (behindBlanks rest).findSome? form.taken?).or
        ((behindBlanks after).findSome? form.taken?) := by
  unfold textBehind?
  by_cases hcolon : after.head? = some ':'
  · obtain ⟨rest, rfl⟩ := List.head?_eq_some_iff.mp hcolon
    have hself : behindBlanks (':' :: rest) = [':' :: rest] := if_neg (by decide)
    rw [beginnings, List.findSome?_append, hself]
    rfl
  · have hnone : afterStart? [':'] after = none := by
      cases after with
      | nil => rfl
      | cons c rest =>
        rw [afterStart?, if_neg]
        rintro rfl
        exact hcolon rfl
    rw [beginnings_of_head?_ne hcolon, hnone]
    rfl

/-- **The pattern of a form does what the form does.** -/
theorem does_pattern (form : MarkerForm) (hline : '\n' ∉ source) :
    Does source (form.pattern.firstResult (captured source)) fun text =>
      (form.afterKeyword? text).bind form.textBehind? := by
  have hbehind := (does_remainder form hline).blanks.colon
  have hafter := hbehind.keyword _ (isCapital_of_mem_tag form.keyword)
  have hopened := hafter.blanks.literal form.opener.toList
  intro text htext
  simp only [← textBehind?_eq] at hopened
  rw [pattern, firstResult_sequence_cons, firstResult_sequence_cons, firstResult_sequence_cons,
    firstResult_sequence_cons, firstResult_sequence_cons]
  refine (hopened text htext).trans ?_
  dsimp only
  unfold afterKeyword?
  cases afterStart? form.opener.toList text with
  | none => rfl
  | some rest =>
    refine findSome?_behindBlanks (fun c more hc => ?_) rest
    rw [afterSpelling?_of_isBlank _ hc]
    rfl

/-! ## The search on a line -/

theorem pattern_captures (hform : form ∈ all) {place stop : Progress}
    (h : stop ∈ form.pattern.ways place) : (captured source stop).isSome := by
  have hsimple : ∀ form ∈ all, form.pattern.roundsHoldNoGroup = true := by decide
  have hremembers : ∀ form ∈ all, form.pattern.remembers 1 = true := by decide
  rw [(agree_ways_readings (hsimple form hform) place).mem_iff,
    mem_readings (hsimple form hform)] at h
  unfold captured
  rw [Option.isSome_map]
  exact h.remembered (hremembers form hform)

/-- At a place of a line the pattern finds the text that the form has there. -/
theorem matchAt?_bind (hform : form ∈ all) (hline : '\n' ∉ line) (htext : text <:+ line) :
    (form.pattern.matchAt? (line.length - text.length) text).bind (·.group? line 1) =
      (form.afterKeyword? text).bind form.textBehind? := by
  have hhead (places : List Progress) : places.head? = places.findSome? some := by
    cases places <;> rfl
  have hdoes := does_pattern form hline text htext
  dsimp only at hdoes
  rw [← hdoes, matchAt?_eq_head?, hhead, Option.bind_map]
  refine (findSome?_bind ?_).trans rfl
  rintro stop hstop _ ⟨⟩
  exact pattern_captures hform hstop

theorem matchAt?_captures (hform : form ∈ all) {offset : Nat} {found : Match}
    (h : form.pattern.matchAt? offset text = some found) : (found.group? source 1).isSome := by
  rw [matchAt?_eq_head?] at h
  obtain ⟨stop, hstop, rfl⟩ := Option.map_eq_some_iff.mp h
  exact pattern_captures hform (List.mem_of_mem_head? hstop)

theorem firstMatchFrom?_eq (pattern : Pattern) (line text : List Char) : text <:+ line →
    pattern.firstMatchFrom? (line.length - text.length) text =
      text.tails.findSome? fun text => pattern.matchAt? (line.length - text.length) text := by
  induction text with
  | nil =>
    intro htext
    rw [firstMatchFrom?, List.tails, List.findSome?_singleton]
  | cons c rest ih =>
    intro htext
    have hoffset : line.length - (c :: rest).length + 1 = line.length - rest.length :=
      congrArg Progress.offset (placeBefore_moved htext)
    rw [firstMatchFrom?, List.tails_cons, findSome?_cons_eq_or, hoffset,
      ih ((List.suffix_cons c rest).trans htext), Option.orElse_eq_or]

/-- **What the pattern of a form finds on a line** is the text of the form where it stands. -/
theorem textOn?_eq (hform : form ∈ all) (hline : '\n' ∉ line) :
    form.textOn? line = (form.standsOn? line).bind form.textBehind? := by
  have hsuffix {text : List Char} (h : text ∈ line.tails) : text <:+ line :=
    (List.mem_tails ..).mp h
  have hmatches : form.pattern.firstMatch? line = line.tails.findSome? fun text =>
      form.pattern.matchAt? (line.length - text.length) text := by
    rw [firstMatch?, ← firstMatchFrom?_eq _ _ _ List.suffix_rfl, Nat.sub_self]
  unfold textOn? standsOn?
  rw [hmatches, findSome?_bind fun _ _ _ => matchAt?_captures hform, findSome?_bind]
  · refine findSome?_congr fun text htext => ?_
    rw [matchAt?_bind hform hline (hsuffix htext), usableAfter?_bind]
  · intro text _ after hafter
    rw [textBehind?_isSome]
    exact (Option.filter_eq_some_iff.mp hafter).2

end MarkerForm

namespace Marker

open Pattern

/-- **A line has the marker that is told of it without patterns.** -/
theorem ofLine?_eq {line : List Char} (hline : '\n' ∉ line) (number : Nat) :
    ofLine? number line = plainly? number line := by
  have htext : MarkerForm.all.findSome? (·.textOn? line) =
      (formOn? line).bind fun found => found.1.textBehind? found.2 := by
    unfold formOn?
    rw [findSome?_bind]
    · refine findSome?_congr fun form hform => ?_
      rw [MarkerForm.textOn?_eq hform hline, Option.bind_map]
      rfl
    · intro form _ found hfound
      obtain ⟨after, hafter, rfl⟩ := Option.map_eq_some_iff.mp hfound
      rw [MarkerForm.textBehind?_isSome]
      exact MarkerForm.taken?_of_standsOn? hafter
  unfold ofLine? plainly?
  rw [htext]
  cases formOn? line with
  | none => rfl
  | some found =>
    obtain ⟨form, after⟩ := found
    show (form.textBehind? after).map _ = (form.textBehind? after).bind _
    cases form.textBehind? after <;> rfl

end Marker

end FileLore
