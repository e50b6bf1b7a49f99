import FileLore.Proofs.Source.ImportSearch

/-!
# Imports with either line end

The items of an import in Python reach to the end of the line and include a carriage
return that stands there. So of two sources that differ in nothing else every import
but one on an unfinished last line is reported differently, and an import without
items at the end of the source may be reported in one form only. All other
observations, the markers and the imported modules are the same
(`observations_lineEnds`).
-/

namespace FileLore

open Pattern Extractor Text

variable {source text : List Char}

/-! ## Items -/

/-- The items of an import reach to the end of the line. -/
theorem exists_items {hit : Match} (hhit : hit ∈ pythonImport.pattern.allMatches source) :
    ∃ before items, source = before ++ (items ++ source.drop hit.span.stop) ∧ items ≠ [] ∧
      '\n' ∉ items ∧ EndsRun (· != '\n') (source.drop hit.span.stop) ∧
        hit.group? source 2 = some items := by
  have hscan := (isScan_iff rfl rfl).mpr (rfl : pythonImport.pattern.allMatches source = _)
  obtain ⟨stop, hhead, heq⟩ := hscan.preferred hit hhit
  have hprefers : (sequence ((importLead ++ [gap]) ++ [importItems])).Prefers
      (placeAt source hit.span.start) stop := hhead
  obtain ⟨before, items, hsource, hne, hall, hend, hstands, hitems⟩ := hprefers.last_run rfl rfl
  have hstop : source.drop hit.span.stop = stop.rest := by
    rw [heq]
    exact hstands
  refine ⟨before, items, hstop ▸ hsource, hne, fun hmem => ?_, hstop ▸ hend, ?_⟩
  · exact absurd (hall '\n' hmem) (by decide)
  · rw [Match.group?, heq]
    exact hitems

/-- An import with a carriage return behind its items. -/
def withReturn : Option String × String → Option String × String
  | (origin, items) => (origin, items ++ "\r")

theorem importLine_withReturn (entry : Option String × String) :
    importLine (withReturn entry) = importLine entry ++ "\r" := by
  obtain ⟨origin, items⟩ := entry
  cases origin with
  | none => exact (String.append_assoc ..).symm
  | some origin => exact (String.append_assoc ..).symm

theorem importOf?_eq_some {hit : Match} {items : List Char} (h : hit.group? source 2 = some items) :
    importOf? source hit = some ((hit.group? source 1).map String.ofList, String.ofList items) := by
  rw [importOf?, h]
  rfl

/-- An import tells without carriage returns the same module, and its items without them. -/
theorem importOf?_erasedMatch {hit : Match}
    (hhit : hit ∈ pythonImport.pattern.allMatches source) {items : List Char}
    (hitems : hit.group? source 2 = some items) :
    importOf? (withoutReturns source) (erasedMatch source hit) =
      some ((hit.group? source 1).map String.ofList, String.ofList (withoutReturns items)) := by
  have hgroup := group?_erasedMatch source hit 2
  rw [hitems] at hgroup
  rw [importOf?_eq_some hgroup, group?_erasedMatch_eq rfl rfl rfl hhit]

variable {hit : Match}

/-- An import on a line that is ended takes the carriage return there. -/
theorem importOf?_of_lt (htext : '\r' ∉ text)
    (hhit : hit ∈ pythonImport.pattern.allMatches (withReturns text))
    (hstop : hit.span.stop < (withReturns text).length) :
    importOf? (withReturns text) hit =
      (importOf? text (erasedMatch (withReturns text) hit)).map withReturn := by
  obtain ⟨before, items, hsource, hne, hfeed, hend, hitems⟩ := exists_items hhit
  have hbehind : (withReturns text).drop hit.span.stop ≠ [] := by
    rw [ne_eq, List.drop_eq_nil_iff]
    omega
  obtain ⟨c, after, hafter⟩ := List.exists_cons_of_ne_nil hbehind
  have hc : c = '\n' := by
    rw [hafter, endsRun_cons] at hend
    simpa using hend
  rw [hafter, hc] at hsource
  obtain ⟨line, hline⟩ : ∃ line, items = line ++ ['\r'] := by
    obtain ⟨front, hfront⟩ := exists_return_of_feed (hsource.trans (List.append_assoc ..).symm)
    obtain ⟨line, d, rfl⟩ := (List.eq_nil_or_concat' items).resolve_left hne
    rw [← List.append_assoc] at hfront
    exact ⟨line, by rw [(List.append_inj' hfront rfl).2]⟩
  subst hline
  -- The carriage return that ends the line is the only one on it.
  have hclean : '\r' ∉ line := by
    have hreturns := returnsEndLines_withReturns htext
    rw [hsource, List.append_assoc line] at hreturns
    refine hreturns.notMem (fun hmem => hfeed (List.mem_append_left _ hmem)) ?_
    show some '\r' ≠ some '\n'
    decide
  have htold := importOf?_erasedMatch hhit hitems
  rw [withoutReturns_withReturns htext, withoutReturns_append, withoutReturns_of_notMem hclean,
    withoutReturns_return, withoutReturns_nil, List.append_nil] at htold
  rw [importOf?_eq_some hitems, htold, String.ofList_append]
  rfl

/-- An import that ends the text takes no carriage return. -/
theorem importOf?_of_eq (htext : '\r' ∉ text)
    (hhit : hit ∈ pythonImport.pattern.allMatches (withReturns text))
    (hstop : hit.span.stop = (withReturns text).length) :
    importOf? (withReturns text) hit =
      importOf? text (erasedMatch (withReturns text) hit) := by
  obtain ⟨before, items, hsource, -, hfeed, -, hitems⟩ := exists_items hhit
  have hclean : '\r' ∉ items := by
    have hreturns := returnsEndLines_withReturns htext
    rw [hsource, hstop, List.drop_length] at hreturns
    exact hreturns.notMem hfeed (by decide)
  have htold := importOf?_erasedMatch hhit hitems
  rw [withoutReturns_withReturns htext, withoutReturns_of_notMem hclean] at htold
  rw [importOf?_eq_some hitems, htold]

/-- An import that ends the text does not end in a line feed. -/
theorem not_feed_of_eq (hhit : hit ∈ pythonImport.pattern.allMatches (withReturns text))
    (hstop : hit.span.stop = (withReturns text).length) : ¬['\n'] <:+ text := by
  rintro ⟨front, rfl⟩
  obtain ⟨before, items, htaken, hne, hline, -, -⟩ := exists_items hhit
  obtain ⟨line, c, rfl⟩ := (List.eq_nil_or_concat' items).resolve_left hne
  have hreturns : withReturns ['\n'] = ['\r'] ++ ['\n'] := rfl
  rw [hstop, List.drop_length, List.append_nil, withReturns_append, hreturns, ← List.append_assoc,
    ← List.append_assoc] at htaken
  have hc := (List.append_inj' htaken rfl).2
  exact hline (hc ▸ List.mem_append_right line List.mem_cons_self)

/-! ## Sources -/

/-- What the last imports are of a source and of the same source with carriage returns. -/
inductive LastImports (source : List Char) :
    List (Option String × String) → List (Option String × String) → Prop where
  | none : LastImports source [] []
  /-- An import on a last line that is not ended is the same in both. -/
  | unfinished (entry : Option String × String) (h : ¬['\n'] <:+ source) :
    LastImports source [entry] [entry]
  /-- An import without items takes the carriage return of the last line for one. The source itself
  has other white space there, an import that begins later, or none. -/
  | bare (last : List (Option String × String)) (origin : Option String)
    (h : EndsInBareImport source) : LastImports source last [(origin, "\r")]

/-- What a match in the text with carriage returns tells in the text without them. -/
def toldImport? (text : List Char) (hit : Match) : Option (Option String × String) :=
  importOf? text (erasedMatch (withReturns text) hit)

theorem filterMap_importOf?_of_lt (htext : '\r' ∉ text) {hits : List Match}
    (hmem : ∀ hit ∈ hits, hit ∈ pythonImport.pattern.allMatches (withReturns text))
    (hstop : ∀ hit ∈ hits, hit.span.stop < (withReturns text).length) :
    hits.filterMap (importOf? (withReturns text)) =
      (hits.filterMap (toldImport? text)).map withReturn := by
  rw [List.map_filterMap]
  exact List.filterMap_congr fun hit hhit => importOf?_of_lt htext (hmem hit hhit) (hstop hit hhit)

/-- Where both forms have the same matches, the last one ends the text or is on a line that is
ended. -/
theorem exists_imports_of_same (htext : '\r' ∉ text)
    (hmatches : pythonImport.pattern.allMatches text =
      (pythonImport.pattern.allMatches (withReturns text)).map (erasedMatch (withReturns text))) :
    ∃ ended last last', IsImports text (ended ++ last) ∧
      IsImports (withReturns text) (ended.map withReturn ++ last') ∧
        LastImports text last last' := by
  have hscan := (isScan_iff rfl rfl).mpr
    (rfl : pythonImport.pattern.allMatches (withReturns text) = _)
  obtain ⟨earlier, final, hhits, hfinal, hlt, heq⟩ := hscan.exists_last
  have hmem {hit : Match} (hhit : hit ∈ earlier ∨ hit ∈ final) :
      hit ∈ pythonImport.pattern.allMatches (withReturns text) :=
    hhits ▸ List.mem_append.mpr hhit
  have himports : IsImports text
      (earlier.filterMap (toldImport? text) ++ final.filterMap (toldImport? text)) := by
    rw [isImports_iff, hmatches, hhits, List.filterMap_map, List.filterMap_append]
    rfl
  have hreturns : IsImports (withReturns text)
      ((earlier.filterMap (toldImport? text)).map withReturn ++
        final.filterMap (importOf? (withReturns text))) := by
    rw [isImports_iff, hhits, List.filterMap_append,
      filterMap_importOf?_of_lt htext (fun hit hhit => hmem (.inl hhit)) hlt]
  refine ⟨_, _, _, himports, hreturns, ?_⟩
  cases final with
  | nil => exact .none
  | cons hit more =>
    obtain rfl : more = [] := List.eq_nil_of_length_eq_zero (by simpa using hfinal)
    have hhit := hmem (.inr List.mem_cons_self)
    have hstop := heq hit List.mem_cons_self
    obtain ⟨-, items, -, -, -, -, hitems⟩ := exists_items hhit
    have hsame : toldImport? text hit = importOf? (withReturns text) hit :=
      (importOf?_of_eq htext hhit hstop).symm
    rw [importOf?_eq_some hitems] at hsame
    rw [List.filterMap_cons_some hsame, List.filterMap_cons_some (importOf?_eq_some hitems)]
    exact .unfinished _ (not_feed_of_eq hhit hstop)

/-- Where the last match takes the carriage return of the last line, all others are on lines that
are ended. -/
theorem exists_imports_of_takesReturn (htext : '\r' ∉ text) {common others : List Match}
    (hhits : pythonImport.pattern.allMatches (withReturns text) = common ++ [hit])
    (hmatches : pythonImport.pattern.allMatches text =
      common.map (erasedMatch (withReturns text)) ++ others)
    (htakes : TakesReturn (withReturns text) hit) (hends : EndsInBareImport text) :
    ∃ ended last last', IsImports text (ended ++ last) ∧
      IsImports (withReturns text) (ended.map withReturn ++ last') ∧
        LastImports text last last' := by
  have hscan := (isScan_iff rfl rfl).mpr hhits.symm
  have himports : IsImports text
      (common.filterMap (toldImport? text) ++ others.filterMap (importOf? text)) := by
    rw [isImports_iff, hmatches, List.filterMap_append, List.filterMap_map]
    rfl
  have hmem : ∀ earlier ∈ common,
      earlier ∈ pythonImport.pattern.allMatches (withReturns text) := fun earlier hearlier =>
    hhits ▸ List.mem_append_left _ hearlier
  have hlt : ∀ earlier ∈ common, earlier.span.stop < (withReturns text).length := by
    intro earlier hearlier
    have hwithin := hscan.within hit (List.mem_append_right _ List.mem_cons_self)
    have happart :=
      (List.pairwise_append.mp hscan.apart).2.2 earlier hearlier hit List.mem_cons_self
    omega
  have hreturns : IsImports (withReturns text)
      ((common.filterMap (toldImport? text)).map withReturn ++
        [((hit.group? (withReturns text) 1).map String.ofList, "\r")]) := by
    rw [isImports_iff, hhits, List.filterMap_append, filterMap_importOf?_of_lt htext hmem hlt,
      List.filterMap_cons_some (importOf?_eq_some htakes.items)]
    rfl
  exact ⟨_, _, _, himports, hreturns, .bare _ _ hends⟩

/-- **All imports but the last ones take the carriage return.** -/
theorem exists_imports_withReturns (htext : '\r' ∉ text) :
    ∃ ended last last', IsImports text (ended ++ last) ∧
      IsImports (withReturns text) (ended.map withReturn ++ last') ∧
        LastImports text last last' := by
  obtain ⟨common, final, others, hhits, hmatches, hcase⟩ :=
    (readsAlikeBefore_pythonImport htext).exists_allMatches
  rw [withoutReturns_withReturns htext] at hmatches
  rcases hcase with ⟨rfl, rfl⟩ | ⟨hit, rfl, htakes, hends⟩
  · rw [List.append_nil] at hhits hmatches
    exact exists_imports_of_same htext (hhits ▸ hmatches)
  · exact exists_imports_of_takesReturn htext hhits hmatches htakes hends

/-- Where an import without items ends the text, with carriage returns there is some import. -/
theorem imports_ne_nil_of_endsInBareImport (htext : EndsInBareImport text)
    {imports : List (Option String × String)} (h : IsImports (withReturns text) imports) :
    imports ≠ [] := by
  rintro rfl
  obtain ⟨hits, hscan, hnone⟩ := h
  obtain rfl := List.forall₂_nil_right_iff.mp hnone
  obtain ⟨before, blanks, htext, hne, hall⟩ := htext
  have hrest : (withReturns text).drop (withReturns before).length =
      "import".toList ++ (withReturns blanks ++ ['\r', '\n']) := by
    rw [htext, withReturns_append, List.drop_left, withReturns_append, withReturns_append]
    rfl
  have hleaves : LeavesReturn (withReturns blanks ++ ['\r', '\n']) :=
    ⟨withReturns blanks, rfl, withReturns_ne_nil hne, forall_mem_withReturns rfl hall⟩
  obtain ⟨groups, hword, -⟩ := takes_literal "import" (withReturns blanks ++ ['\r', '\n'])
    (withReturns text) (withReturns before).length [] hrest
  rw [← hrest] at hword
  let start := placeAt (withReturns text) (withReturns before).length
  let mid : Progress := ⟨(withReturns before).length + "import".toList.length,
    withReturns blanks ++ ['\r', '\n'], groups⟩
  have hmid : mid ∈ (sequence importLead).readings start := by
    rw [importLead, readings_sequence_cons, List.mem_flatMap]
    exact ⟨start, List.mem_append_right _ List.mem_cons_self, List.mem_of_mem_head? hword⟩
  have hstart : StandsIn (withReturns text) start := rfl
  obtain ⟨stop, hstop, -⟩ := exists_takesReturn (hstart.mem_readings rfl hmid) hleaves 0
  have hread : stop ∈ pythonImport.pattern.readings start := by
    rw [pythonImport_pattern, readings_sequence_append, List.mem_flatMap]
    exact ⟨mid, hmid, List.mem_of_mem_head? hstop⟩
  have hle : (withReturns before).length ≤ (withReturns text).length := by
    rw [htext, withReturns_append, List.length_append]
    exact Nat.le_add_right _ _
  exact hscan.complete _ (Nat.zero_le _) hle (by nofun) stop ((mem_readings rfl).mp hread)

/-- No import of a source without carriage returns tells one. -/
theorem notMem_importLine (htext : '\r' ∉ text) {imports : List (Option String × String)}
    (h : IsImports text imports) : ∀ entry ∈ imports, '\r' ∉ (importLine entry).toList := by
  intro entry hentry
  rw [isImports_iff.mp h, List.mem_filterMap] at hentry
  obtain ⟨hit, -, hentry⟩ := hentry
  have hgroup {index : Nat} {found : String}
      (hfound : (hit.group? text index).map String.ofList = some found) : '\r' ∉ found.toList := by
    rw [Match.group?, Option.map_map, Option.map_eq_some_iff] at hfound
    obtain ⟨span, -, rfl⟩ := hfound
    rw [Function.comp_apply, String.toList_ofList, Span.text]
    exact fun hmem => htext (List.mem_of_mem_drop (List.mem_of_mem_take hmem))
  obtain ⟨items, hitems, rfl⟩ := Option.map_eq_some_iff.mp hentry
  cases horigin : (hit.group? text 1).map String.ofList with
  | none => simp [importLine, hgroup hitems]
  | some origin => simp [importLine, hgroup hitems, hgroup horigin]

/-- Names are reported alike with and without carriage returns. -/
theorem NameRule.observations_withReturns {label : String} {rule : ElementRule}
    (h : NameRule label rule) (htext : '\r' ∉ text) :
    rule.observations (withReturns text) = rule.observations text := by
  have hsame := h.observations_erased (returnsEndLines_withReturns htext)
  rw [withoutReturns_withReturns htext] at hsame
  exact hsame.symm

/-- In all languages but Python the observations are the same. -/
theorem observations_withReturns {source returned : String} (hsource : '\r' ∉ source.toList)
    (hreturned : returned.toList = withReturns source.toList) {language : Language}
    (hlanguage : language ≠ .python) :
    language.observations returned = language.observations source := by
  unfold Language.observations Extractor.observations
  refine List.flatMap_congr fun rule hrule => ?_
  obtain ⟨label, hname⟩ := exists_nameRule hlanguage hrule
  rw [hreturned, hname.observations_withReturns hsource]

/-- Whether an import without items is all that the two sources differ in, if no line that is ended
has an import. -/
theorem lastImports_eq_iff {last last' : List (Option String × String)} (htext : '\r' ∉ text)
    (himports : IsImports text last) (hreturns : IsImports (withReturns text) last')
    (h : LastImports text last last') :
    last'.map importLine = last.map importLine ↔ ¬EndsInBareImport text := by
  cases h with
  | none =>
    exact ⟨fun _ hends => imports_ne_nil_of_endsInBareImport hends hreturns rfl, fun _ => rfl⟩
  | unfinished entry hfeed =>
    refine ⟨fun _ hends => hfeed ?_, fun _ => rfl⟩
    obtain ⟨before, blanks, rfl, -⟩ := hends
    exact ⟨before ++ ("import".toList ++ blanks), by simp⟩
  | bare last origin hends =>
    refine ⟨fun hsame => ?_, fun hnot => absurd hends hnot⟩
    have hmem : importLine (origin, "\r") ∈ last.map importLine := by
      rw [← hsame]
      exact List.mem_cons_self
    obtain ⟨entry, hentry, heq⟩ := List.mem_map.mp hmem
    refine absurd ?_ (notMem_importLine htext himports entry hentry)
    rw [heq]
    cases origin <;> simp [importLine]

/-- **What is read off a source with either line end.** Markers, imported modules and the
observations in all languages but Python are the same. Of Python the imports differ in the carriage
return behind their items, unless one ends the source; and an import without items at the end of the
source has the carriage return for its items. So the observations are the same just if there are no
imports but one on an unfinished last line, and no such import without items. -/
theorem observations_lineEnds {source returned : String} (hsource : '\r' ∉ source.toList)
    (hreturned : returned.toList = withReturns source.toList) :
    Marker.scan returned = Marker.scan source ∧
      importedModules returned = importedModules source ∧
      (∀ language : Language, language ≠ .python →
        language.observations returned = language.observations source) ∧
      ∃ names ended last last',
        IsImports source.toList (ended ++ last) ∧
        IsImports returned.toList (ended.map withReturn ++ last') ∧
        LastImports source.toList last last' ∧
        Language.python.observations source =
          names ++ (ended.map importLine ++ last.map importLine) ∧
        Language.python.observations returned =
          names ++ (ended.map (importLine · ++ "\r") ++ last'.map importLine) ∧
        (Language.python.observations returned = Language.python.observations source ↔
          ended = [] ∧ ¬EndsInBareImport source.toList) := by
  refine ⟨?_, ?_, fun language => observations_withReturns hsource hreturned, ?_⟩
  · rw [Marker.scan, hreturned, lines_withReturns hsource, Marker.scan]
  · refine (importedModules_erased ?_ ?_).symm
    · rw [hreturned]
      exact returnsEndLines_withReturns hsource
    · rw [hreturned, withoutReturns_withReturns hsource]
  · obtain ⟨ended, last, last', himports, hreturns, hlast⟩ := exists_imports_withReturns hsource
    let names := pythonClass.observations source.toList ++ pythonFunction.observations source.toList
    have hplain : Language.python.observations source =
        names ++ (ended.map importLine ++ last.map importLine) := by
      rw [observations_python, pythonImport_observations himports, List.map_append,
        ← List.append_assoc]
    have hended : Language.python.observations returned =
        names ++ (ended.map (importLine · ++ "\r") ++ last'.map importLine) := by
      have hlines : importLine ∘ withReturn = (importLine · ++ "\r") := funext importLine_withReturn
      rw [observations_python, hreturned, pythonImport_observations hreturns,
        NameRule.pythonClass.observations_withReturns hsource,
        NameRule.pythonFunction.observations_withReturns hsource, List.map_append, List.map_map,
        hlines, ← List.append_assoc]
    refine ⟨names, ended, last, last', himports, hreturned ▸ hreturns, hlast, hplain, hended, ?_⟩
    rw [hplain, hended, List.append_cancel_left_eq]
    cases ended with
    | nil => exact (lastImports_eq_iff hsource himports hreturns hlast).trans (and_iff_right rfl).symm
    | cons entry ended =>
      refine ⟨fun hsame => ?_, fun h => nomatch h.1⟩
      have hlength := congrArg String.length (List.cons.inj hsame).1
      rw [String.length_append] at hlength
      exact absurd hlength (by simp)

theorem observations_lineEnds_os :
    '\r' ∉ "import os\n".toList ∧ "import os\r\n".toList = withReturns "import os\n".toList ∧
      Language.python.observations "import os\r\n" ≠
        Language.python.observations "import os\n" := by
  have hsource : '\r' ∉ "import os\n".toList := by decide
  have hreturned : "import os\r\n".toList = withReturns "import os\n".toList := by decide
  refine ⟨hsource, hreturned, fun hsame => ?_⟩
  obtain ⟨names, ended, last, last', himports, -, hlast, -, -, hiff⟩ :=
    (observations_lineEnds hsource hreturned).2.2.2
  obtain ⟨rfl, hbare⟩ := hiff.mp hsame
  have hfound : (pythonImport.pattern.allMatches "import os\n".toList).filterMap
      (importOf? "import os\n".toList) = [(none, "os")] := by rfl
  cases hlast with
  | none => exact absurd ((isImports_iff.mp himports).trans hfound) (List.cons_ne_nil _ _).symm
  | unfinished _ hfeed => exact hfeed (by decide)
  | bare _ _ hends => exact hbare hends

-- An import without items takes the carriage return for one.
example : Language.python.observations "import \n" = [] ∧
    Language.python.observations "import \r\n" = ["Imports: \r"] := by
  decide +kernel

end FileLore
