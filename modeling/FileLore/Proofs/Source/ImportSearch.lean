import FileLore.Proofs.Source.LineEnds

/-!
# The search for imports with either line end

The modules that names are imported from are the same whichever way the lines of a
source end (`importedModules_erased`).

An import in Python is found alike as well, where it has items
(`itemsAlike_of_mem`). Where a source ends in the keyword and white space it
has none, and white space behind the keyword is given back to make some. This can
be the carriage return of the last line, which the source without carriage returns
does not have (`itemsAlike_or_leavesReturn`). No import follows that one, so all
others are the same in both forms (`readsAlikeBefore_pythonImport`).
-/

namespace FileLore

open Pattern Extractor Text

variable {source rest : List Char} {mid : Progress}

/-! ## Modules -/

theorem ignoresReturns_importOrigin : IgnoresReturns importOrigin := by
  have himport : IgnoresReturns (sequence [gap, literal "import"]) :=
    ignoresReturns_gap_cons (ignoresReturns_literal (by decide))
      (followsRun_literal rfl (by decide)) rfl
  have hfollows : FollowsRun isBlank (group 1 (oneOrMore (!isBlank ·))) :=
    (followsRun_oneOrMore fun c hc => by simpa using hc).group 1
  exact (ignoresReturns_literal (by decide)).cons rfl
    (ignoresReturns_gap_cons (ignoresReturns_origin.cons rfl himport) (hfollows.cons _) rfl)

/-- **The imported modules are the same** with and without carriage returns. -/
theorem importedModules_erased {source other : String} (hsource : ReturnsEndLines source.toList)
    (hother : other.toList = withoutReturns source.toList) :
    importedModules other = importedModules source := by
  have halike := ignoresReturns_importOrigin.readsAlike rfl
    ((beginsWith_literal "from" _).refuses rfl (by decide)) hsource
  have horigins : (importOrigin.allMatches other.toList).filterMap (·.group? other.toList 1) =
      (importOrigin.allMatches source.toList).filterMap (·.group? source.toList 1) := by
    rw [hother, halike.allMatches, List.filterMap_map]
    exact List.filterMap_congr fun hit hhit => group?_erasedMatch_eq rfl rfl rfl hhit
  unfold importedModules
  dsimp only
  rw [horigins]

/-! ## Imports -/

/-- What an import begins with: perhaps a module, and the keyword. -/
def importLead : List Pattern :=
  [optional (sequence [literal "from", gap, group 1 (oneOrMore (!isBlank ·)), gap]),
    literal "import"]

/-- The items of an import: all that is left of the line. -/
def importItems : Pattern := group 2 (oneOrMore (· != '\n'))

/-- What an import goes on with: its items. -/
def importTail : List Pattern := [gap, importItems]

theorem pythonImport_pattern : pythonImport.pattern = sequence (importLead ++ importTail) := rfl

theorem ignoresReturns_importLead : IgnoresReturns (sequence importLead) := by
  have horigin : IgnoresReturns (sequence ([literal "from", gap,
      group 1 (oneOrMore (!isBlank ·)), gap] ++ [literal "import"])) := ignoresReturns_importOrigin
  exact horigin.optional_cons (ignoresReturns_literal (by decide))

/-- Behind the keyword the items are all of the line from its first character that is no white
space on. -/
theorem head?_importTail {c : Char} (hblank : mid.rest.takeWhile isBlank ≠ []) (hmem : c ∈ mid.rest)
    (hc : isBlank c = false) :
    ((sequence importTail).readings mid).head? = some ((afterRun isBlank mid).remember 2
      (afterRun (· != '\n') (afterRun isBlank mid))) := by
  have hline : (afterRun isBlank mid).rest.takeWhile (· != '\n') ≠ [] := by
    have hbehind : mid.rest.dropWhile isBlank ≠ [] := by
      intro hnil
      rw [List.dropWhile_eq_nil_iff.mp hnil c hmem] at hc
      cases hc
    obtain ⟨d, more, hmore⟩ := List.exists_cons_of_ne_nil hbehind
    have hd := endsRun_dropWhile isBlank mid.rest
    rw [hmore, endsRun_cons] at hd
    have hfeed : (d != '\n') = true := by
      refine bne_iff_ne.mpr ?_
      rintro rfl
      cases hd
    show (mid.rest.dropWhile isBlank).takeWhile (· != '\n') ≠ []
    rw [hmore, List.takeWhile_cons_of_pos (p := (· != '\n')) hfeed]
    exact List.cons_ne_nil _ _
  refine head?_flatMap (head?_oneOrMore_afterRun hblank) ?_
  show (((oneOrMore (· != '\n')).readings (afterRun isBlank mid)).map _).head? = _
  rw [List.head?_map, head?_oneOrMore_afterRun hline]
  rfl

/-- White space behind the keyword is white space without carriage returns as well, since a line
feed follows where it begins with one. -/
theorem takeWhile_isBlank_erased_ne_nil {c : Char} (hsource : ReturnsEndLines source)
    (hmid : StandsIn source mid) (hrest : mid.rest = c :: rest) (hc : isBlank c = true) :
    (withoutReturns mid.rest).takeWhile isBlank ≠ [] := by
  obtain ⟨d, more, hmore, hd⟩ :
      ∃ d more, (erased source mid).rest = d :: more ∧ isBlank d = true := by
    by_cases hreturn : c = '\r'
    · subst hreturn
      obtain ⟨more, -, hmore⟩ := erased_rest_return hsource hmid hrest
      exact ⟨'\n', _, hmore, rfl⟩
    · exact ⟨c, _, erased_rest hrest hreturn, hc⟩
  have heq : withoutReturns mid.rest = d :: more := hmore
  rw [heq, List.takeWhile_cons_of_pos hd]
  exact List.cons_ne_nil _ _

theorem refuses_importTail {c : Char} (hc : isBlank c = false) :
    (sequence importTail).Refuses (c :: rest) := by
  refine Refuses.sequence ?_ _
  exact (refuses_one hc).sequence [many isBlank]

/-- Whether carriage returns make no difference to which items are read from a place on. -/
def ItemsAlike (source : List Char) (mid : Progress) : Prop :=
  ((sequence importTail).readings mid).head?.map (erased source) =
    ((sequence importTail).readings (erased source mid)).head?

/-- Where there are items, carriage returns make no difference to them. -/
theorem itemsAlike_of_mem (hsource : ReturnsEndLines source) (hmid : StandsIn source mid)
    {c : Char} (hmem : c ∈ mid.rest) (hc : isBlank c = false) : ItemsAlike source mid := by
  have hne : c ≠ '\r' := by
    rintro rfl
    cases hc
  obtain ⟨d, more, hrest⟩ := List.exists_cons_of_ne_nil (List.ne_nil_of_mem hmem)
  cases hd : isBlank d with
  | true =>
    have hblank : mid.rest.takeWhile isBlank ≠ [] := by
      rw [hrest, List.takeWhile_cons_of_pos hd]
      exact List.cons_ne_nil _ _
    have hmem' : c ∈ withoutReturns mid.rest := List.mem_filter.mpr ⟨hmem, bne_iff_ne.mpr hne⟩
    have hbetween : StandsIn source (afterRun isBlank mid) :=
      hmid.ahead (ahead_moved List.takeWhile_append_dropWhile.symm)
    have hblank' := takeWhile_isBlank_erased_ne_nil hsource hmid hrest hd
    rw [ItemsAlike, head?_importTail hblank hmem hc, head?_importTail hblank' hmem' hc,
      Option.map_some, erased_remember, erased_afterRun hbetween rfl, erased_afterRun hmid rfl]
  | false =>
    -- Right behind the keyword there is no white space, so that this is no import.
    have hreturn : d ≠ '\r' := by
      rintro rfl
      cases hd
    have hnone (place : Progress) {rest : List Char} (hplace : place.rest = d :: rest) :
        (sequence importTail).readings place = [] := by
      obtain ⟨offset, text, groups⟩ := place
      obtain rfl : text = d :: rest := hplace
      exact refuses_importTail hd offset groups
    rw [ItemsAlike, hnone mid hrest, hnone _ (erased_rest hrest hreturn)]
    rfl

/-! ## Imports without items -/

/-- Among line feeds there are no items. -/
theorem readings_importItems_nil {place : Progress} (h : ∀ c ∈ place.rest, c = '\n') :
    importItems.readings place = [] := by
  rw [List.eq_nil_iff_forall_not_mem]
  intro stop hstop
  have hread : importItems.Reads place stop := (mem_readings rfl).mp hstop
  obtain ⟨reached, hitems, -⟩ := hread
  obtain ⟨items, hne, hall, hrest⟩ := hitems.oneOrMore
  obtain ⟨c, more, rfl⟩ := List.exists_cons_of_ne_nil hne
  have hc : c = '\n' := h c (by simp [hrest])
  exact absurd (hall c List.mem_cons_self) (by simp [hc])

/-- Nor are there any if all white space but the first character of it are line feeds. -/
theorem readings_importTail_nil (h : ∀ c ∈ mid.rest.tail, c = '\n') :
    (sequence importTail).readings mid = [] := by
  rw [importTail, readings_sequence_cons, List.flatMap_eq_nil_iff]
  intro between hbetween
  have hread : gap.Reads mid between := (mem_readings rfl).mp hbetween
  obtain ⟨blanks, hne, -, hmid⟩ := hread.oneOrMore
  obtain ⟨c, more, rfl⟩ := List.exists_cons_of_ne_nil hne
  exact readings_importItems_nil fun d hd => h d (by simp [hmid, hd])

variable {feeds : List Char} {last : Char}

/-- In front of line feeds just one character is left for the items. -/
theorem head?_importItems {place : Progress} (hlast : last ≠ '\n') (hfeeds : ∀ c ∈ feeds, c = '\n')
    (hrest : place.rest = last :: feeds) :
    (importItems.readings place).head? = some (place.remember 2 (place.moved 1 feeds)) := by
  have hend : EndsRun (· != '\n') feeds := fun c hc => by
    simp [hfeeds c (List.mem_of_mem_head? hc)]
  have hrun := @head?_oneOrMore (· != '\n') place [last] feeds (List.cons_ne_nil _ _)
    (List.forall_mem_singleton.mpr (bne_iff_ne.mpr hlast)) hend hrest
  rw [importItems, readings, List.head?_map, hrun]
  rfl

/-- White space is given back until there are items: its last character but for line feeds. -/
theorem head?_many_importItems (hlast : last ≠ '\n') (hblank : isBlank last = true)
    (hfeeds : ∀ c ∈ feeds, c = '\n') (blanks : List Char) : ∀ (offset : Nat)
      (groups : List (Nat × Span)), (∀ c ∈ blanks, isBlank c = true) →
        (((many isBlank).readings ⟨offset, blanks ++ last :: feeds, groups⟩).flatMap
          importItems.readings).head? =
            some (Progress.remember 2 ⟨offset + blanks.length, last :: feeds, groups⟩
              ⟨offset + (blanks.length + 1), feeds, groups⟩) := by
  induction blanks with
  | nil =>
    intro offset groups _
    have hnone : ((many isBlank).readings ⟨offset + 1, feeds, groups⟩).flatMap
        importItems.readings = [] := by
      rw [List.flatMap_eq_nil_iff]
      intro place hplace
      have hread : (many isBlank).Reads ⟨offset + 1, feeds, groups⟩ place :=
        (mem_readings rfl).mp hplace
      obtain ⟨blanks, hsplit⟩ := hread.append
      dsimp only at hsplit
      exact readings_importItems_nil fun c hc => hfeeds c (by simp [hsplit, hc])
    have hone : (one isBlank).readings ⟨offset, last :: feeds, groups⟩ =
        [⟨offset + 1, feeds, groups⟩] := if_pos hblank
    rw [List.nil_append, readings_many, hone, List.flatMap_singleton, List.flatMap_append, hnone,
      List.nil_append, List.flatMap_singleton, head?_importItems hlast hfeeds rfl]
    rfl
  | cons c blanks ih =>
    intro offset groups hall
    obtain ⟨hc, hall⟩ := List.forall_mem_cons.mp hall
    have hone : (one isBlank).readings ⟨offset, c :: (blanks ++ last :: feeds), groups⟩ =
        [⟨offset + 1, blanks ++ last :: feeds, groups⟩] := if_pos hc
    rw [List.cons_append, readings_many, hone, List.flatMap_singleton, List.flatMap_append,
      List.head?_append, ih (offset + 1) groups hall, Option.some_or, List.length_cons]
    simp only [Nat.add_assoc, Nat.add_comm 1]

/-- **An import without items** takes the last character of the white space for one, but for line
feeds, if that is not the first. -/
theorem head?_importTail_blank {blanks : List Char} (hne : blanks ≠ [])
    (hall : ∀ c ∈ blanks, isBlank c = true) (hlast : last ≠ '\n') (hblank : isBlank last = true)
    (hfeeds : ∀ c ∈ feeds, c = '\n') (hrest : mid.rest = blanks ++ last :: feeds) :
    ((sequence importTail).readings mid).head? =
      some ((mid.moved blanks.length (last :: feeds)).remember 2
        (mid.moved (blanks.length + 1) feeds)) := by
  obtain ⟨offset, unread, groups⟩ := mid
  obtain rfl : unread = blanks ++ last :: feeds := hrest
  obtain ⟨c, blanks, rfl⟩ := List.exists_cons_of_ne_nil hne
  obtain ⟨hc, hall⟩ := List.forall_mem_cons.mp hall
  have hone : (one isBlank).readings ⟨offset, c :: (blanks ++ last :: feeds), groups⟩ =
      [⟨offset + 1, blanks ++ last :: feeds, groups⟩] := if_pos hc
  have hgap : gap.readings ⟨offset, c :: (blanks ++ last :: feeds), groups⟩ =
      (many isBlank).readings ⟨offset + 1, blanks ++ last :: feeds, groups⟩ := by
    show ((one isBlank).readings ⟨offset, c :: (blanks ++ last :: feeds), groups⟩).flatMap _ = _
    rw [hone, List.flatMap_singleton]
  show ((gap.readings ⟨offset, c :: (blanks ++ last :: feeds), groups⟩).flatMap
    importItems.readings).head? = _
  rw [hgap, head?_many_importItems hlast hblank hfeeds blanks (offset + 1) groups hall]
  simp only [Progress.moved, List.length_cons, Nat.add_assoc, Nat.add_comm 1]

variable {text : List Char}

/-- Whether all that is left behind the keyword is white space, which ends in a line end and is more
than that. -/
def LeavesReturn (rest : List Char) : Prop :=
  ∃ blanks, rest = blanks ++ ['\r', '\n'] ∧ blanks ≠ [] ∧ ∀ c ∈ blanks, isBlank c = true

theorem itemsAlike_of_feeds (h : ∀ c ∈ mid.rest.tail, c = '\n')
    (h' : ∀ c ∈ (withoutReturns mid.rest).tail, c = '\n') : ItemsAlike source mid := by
  have herased : ∀ c ∈ (erased source mid).rest.tail, c = '\n' := h'
  rw [ItemsAlike, readings_importTail_nil h, readings_importTail_nil herased]
  rfl

variable {blanks : List Char}

/-- On an unfinished line the last character of the white space is taken with and without carriage
returns, if it is not the first. -/
theorem itemsAlike_of_unfinished (hsource : ReturnsEndLines source) (hmid : StandsIn source mid)
    (hrest : mid.rest = blanks ++ [last]) (hall : ∀ c ∈ blanks, isBlank c = true)
    (hblank : isBlank last = true) (hlast : last ≠ '\n') : ItemsAlike source mid := by
  have hsuffix : blanks ++ [last] <:+ source := hrest ▸ hmid.suffix
  have hreturn : last ≠ '\r' := by
    rintro rfl
    obtain ⟨more, hmore⟩ := hsource [] ((List.suffix_append _ _).trans hsuffix)
    cases hmore
  have hkept : withoutReturns [last] = [last] := by
    rw [withoutReturns_cons hreturn, withoutReturns_nil]
  have herased : (erased source mid).rest = withoutReturns blanks ++ [last] := by
    rw [erased, hrest, withoutReturns_append, hkept]
  by_cases hne : blanks = []
  · subst hne
    exact itemsAlike_of_feeds (by simp [hrest]) (by simp [hrest, hkept])
  have hne' : withoutReturns blanks ≠ [] :=
    withoutReturns_ne_nil (hsource.mono hsuffix) hne (by simpa using hlast)
  have hall' : ∀ c ∈ withoutReturns blanks, isBlank c = true := fun c hc =>
    hall c (List.mem_of_mem_filter hc)
  have hmoved := @erased_moved _ (blanks ++ [last]) [] _ hmid (by simp [hrest])
  rw [withoutReturns_append, hkept, List.length_append, List.length_append] at hmoved
  have hnil : ∀ c ∈ ([] : List Char), c = '\n' := List.forall_mem_nil _
  rw [ItemsAlike, head?_importTail_blank hne hall hlast hblank hnil hrest,
    head?_importTail_blank hne' hall' hlast hblank hnil herased,
    Option.map_some, erased_remember, erased_moved hmid hrest, hkept]
  exact congrArg (fun stop => some (Progress.remember 2 _ stop)) hmoved

/-- At the end of a line that is ended there is nothing to take but the carriage return, unless the
white space is no more than the line end. -/
theorem itemsAlike_or_leavesReturn_of_ended (hmid : StandsIn (withReturns text) mid)
    (hrest : mid.rest = blanks ++ ['\n']) (hall : ∀ c ∈ blanks, isBlank c = true) :
    ItemsAlike (withReturns text) mid ∨ LeavesReturn mid.rest := by
  obtain ⟨before, hbefore⟩ : blanks ++ ['\n'] <:+ withReturns text := hrest ▸ hmid.suffix
  rw [← List.append_assoc] at hbefore
  obtain ⟨front, hfront⟩ := exists_return_of_feed hbefore.symm
  rcases List.eq_nil_or_concat' blanks with rfl | ⟨blanks, last, rfl⟩
  · exact .inl (itemsAlike_of_feeds (by simp [hrest]) (by simp [hrest, withoutReturns]))
  rw [← List.append_assoc] at hfront
  obtain rfl : last = '\r' := by simpa using (List.append_inj' hfront rfl).2
  by_cases hne : blanks = []
  · subst hne
    exact .inl (itemsAlike_of_feeds (by simp [hrest]) (by simp [hrest, withoutReturns]))
  · exact .inr ⟨blanks, hrest.trans (List.append_assoc ..), hne, fun c hc =>
      hall c (List.mem_append_left _ hc)⟩

/-- **Carriage returns make no difference to the items**, unless there is nothing to take for them
but a carriage return. -/
theorem itemsAlike_or_leavesReturn (htext : '\r' ∉ text) (hmid : StandsIn (withReturns text) mid) :
    ItemsAlike (withReturns text) mid ∨ LeavesReturn mid.rest := by
  have hreturns := returnsEndLines_withReturns htext
  by_cases hblank : ∀ c ∈ mid.rest, isBlank c = true
  · rcases List.eq_nil_or_concat' mid.rest with hrest | ⟨blanks, last, hrest⟩
    · exact .inl (itemsAlike_of_feeds (by simp [hrest]) (by simp [hrest]))
    rw [hrest, List.forall_mem_append, List.forall_mem_singleton] at hblank
    obtain ⟨hall, hblank⟩ := hblank
    by_cases hlast : last = '\n'
    · subst hlast
      exact itemsAlike_or_leavesReturn_of_ended hmid hrest hall
    · exact .inl (itemsAlike_of_unfinished hreturns hmid hrest hall hblank hlast)
  · obtain ⟨c, hmem, hc⟩ := by simpa using hblank
    exact .inl (itemsAlike_of_mem hreturns hmid hmem hc)

/-- Whether a text ends in the keyword of an import and white space that is more than a line
feed and ends in one. -/
def EndsInBareImport (text : List Char) : Prop :=
  ∃ before blanks, text = before ++ ("import".toList ++ (blanks ++ ['\n'])) ∧ blanks ≠ [] ∧
    ∀ c ∈ blanks, isBlank c = true

/-- Whether a match has the carriage return of the last line for its items. -/
structure TakesReturn (source : List Char) (hit : Match) : Prop where
  items : hit.group? source 2 = some ['\r']
  behind : source.drop hit.span.stop = ['\n']

/-- Where nothing but white space is left behind the keyword, the text without carriage returns ends
in an import without items. -/
theorem endsInBareImport_of_leavesReturn {start : Progress} (htext : '\r' ∉ text)
    (hstart : StandsIn (withReturns text) start) (hread : (sequence importLead).Reads start mid)
    (hleaves : LeavesReturn mid.rest) : EndsInBareImport text := by
  obtain ⟨blanks, hrest, hne, hall⟩ := hleaves
  obtain ⟨before, hlead, himport⟩ := reads_sequence_cons.mp hread
  have hbefore : StandsIn (withReturns text) before := hstart.ahead hlead.ahead
  have hword : before.rest = "import".toList ++ mid.rest := Reads.literal himport
  have hsplit : withReturns text = (withReturns text).take before.offset ++
      ("import".toList ++ (blanks ++ ['\r', '\n'])) := by
    rw [← hrest, ← hword, ← hbefore, List.take_append_drop]
  have hreturns : ReturnsEndLines (blanks ++ ['\r', '\n']) := by
    refine (returnsEndLines_withReturns htext).mono ?_
    rw [hsplit, ← List.append_assoc]
    exact List.suffix_append _ _
  have herased := congrArg withoutReturns hsplit
  rw [withoutReturns_withReturns htext, withoutReturns_append, withoutReturns_append,
    withoutReturns_append] at herased
  exact ⟨_, withoutReturns blanks, herased, withoutReturns_ne_nil hreturns hne (by decide),
    fun c hc => hall c (List.mem_of_mem_filter hc)⟩

/-- Where a carriage return is left for the items, it is taken. -/
theorem exists_takesReturn {source : List Char} (hmid : StandsIn source mid)
    (hleaves : LeavesReturn mid.rest) (start : Nat) :
    ∃ stop, ((sequence importTail).readings mid).head? = some stop ∧
      TakesReturn source ⟨⟨start, stop.offset⟩, stop.groups⟩ := by
  obtain ⟨blanks, hrest, hne, hall⟩ := hleaves
  have hbehind (count : Nat) : source.drop (mid.offset + count) =
      (blanks ++ ['\r', '\n']).drop count := by
    rw [← List.drop_drop, hmid, hrest]
  have hreturn : '\r' ≠ '\n' := by decide
  refine ⟨_, head?_importTail_blank hne hall hreturn rfl (by simp) hrest, ?_, ?_⟩
  · show some (((source.drop (mid.offset + blanks.length)).take
      (mid.offset + (blanks.length + 1) - (mid.offset + blanks.length)))) = some ['\r']
    rw [hbehind, List.drop_left, Nat.add_sub_add_left, Nat.add_sub_cancel_left]
    rfl
  · show source.drop (mid.offset + (blanks.length + 1)) = ['\n']
    rw [hbehind, ← List.drop_drop, List.drop_left]
    rfl

/-- **Imports are looked for alike** with and without carriage returns, but where nothing is left
for the items but a carriage return. -/
theorem alikeAt_pythonImport (htext : '\r' ∉ text) (offset : Nat) :
    pythonImport.pattern.AlikeAt (withReturns text) offset ∨
      EndsInBareImport text ∧ ∃ found, TakesReturn (withReturns text) found ∧
        pythonImport.pattern.matchAt? offset ((withReturns text).drop offset) = some found := by
  have hplace : StandsIn (withReturns text) (placeAt (withReturns text) offset) := rfl
  have hlead := ignoresReturns_importLead _ _ (returnsEndLines_withReturns htext) hplace
  have hstands {mid : Progress}
      (hmid : mid ∈ (sequence importLead).readings (placeAt (withReturns text) offset)) :
      StandsIn (withReturns text) mid :=
    hplace.mem_readings rfl hmid
  -- What an import begins with is read alike; its items are read from each place it leads to.
  have htail : ∀ mid ∈ (sequence importLead).readings (placeAt (withReturns text) offset),
      ItemsAlike (withReturns text) mid ∨
        LeavesReturn mid.rest ∧ ((sequence importTail).readings mid).head?.isSome := by
    intro mid hmid
    refine (itemsAlike_or_leavesReturn htext (hstands hmid)).imp_right fun hleaves => ?_
    obtain ⟨stop, hstop, -⟩ := exists_takesReturn (hstands hmid) hleaves offset
    exact ⟨hleaves, Option.isSome_of_eq_some hstop⟩
  rcases findSome?_map_or htail with halike | ⟨mid, hmid, hleaves, hfind⟩
  · left
    rw [AlikeAt, pythonImport_pattern, readings_sequence_append, readings_sequence_append,
      List.head?_flatMap, List.head?_flatMap, halike, ← hlead, List.findSome?_map]
    rfl
  · obtain ⟨stop, hstop, htakes⟩ := exists_takesReturn (hstands hmid) hleaves offset
    refine .inr ⟨endsInBareImport_of_leavesReturn htext hplace ((mem_readings rfl).mp hmid) hleaves,
      _, htakes, ?_⟩
    rw [matchAt?_eq_preferred rfl, pythonImport_pattern, readings_sequence_append,
      List.head?_flatMap]
    exact congrArg (Option.map _) (hfind.trans hstop)

/-- No import begins behind the carriage return of the last line. -/
theorem matchesFrom_takesReturn {source : List Char} {hit : Match} (htakes : TakesReturn source hit)
    (offset : Nat) :
    pythonImport.pattern.matchesFrom hit.span.stop (offset + 1) (source.drop (offset + 1)) = [] := by
  by_cases hle : offset + 1 ≤ source.length
  swap
  · rw [List.drop_eq_nil_of_le (by omega)]
    rfl
  have hscan := @isScanFrom_matchesFrom pythonImport.pattern source rfl rfl
    (source.drop (offset + 1)) (offset + 1) hit.span.stop rfl hle
  rw [List.eq_nil_iff_forall_not_mem]
  intro next hnext
  obtain ⟨hstart, hless, hstop⟩ := hscan.within next hnext
  obtain ⟨stop, hread, -⟩ := (hscan.preferred next hnext).reads rfl
  obtain ⟨word, hword, hbegin⟩ := beginsWith_pythonImport _ _ hread
  have hbehind := congrArg List.length htakes.behind
  have hlong : ∀ word ∈ ["from", "import"], 2 ≤ word.toList.length := by decide
  have hword := hlong word hword
  have hbegin := hbegin.length_le
  simp only [placeAt, List.length_drop, List.length_singleton] at hbegin hbehind
  omega

/-- **The search for imports** leads to the same with and without carriage returns, up to an import
without items at the end of the text. -/
theorem readsAlikeBefore_pythonImport (htext : '\r' ∉ text) :
    pythonImport.pattern.ReadsAlikeBefore
      (fun hit => TakesReturn (withReturns text) hit ∧ EndsInBareImport text) (withReturns text) where
  holds := rfl
  refuses := beginsWith_pythonImport.refuses rfl (by decide)
  head offset := (alikeAt_pythonImport htext offset).imp_right fun ⟨hends, found, htakes, hfound⟩ =>
    ⟨found, hfound, ⟨htakes, hends⟩, matchesFrom_takesReturn htakes offset⟩

end FileLore
