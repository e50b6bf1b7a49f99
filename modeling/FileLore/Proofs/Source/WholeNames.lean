import FileLore.Proofs.Pattern.WholeRun
import FileLore.Proofs.Source.Exports

/-!
# Whether reported names are whole

The names that are reported of classes, functions, structures and interfaces are
whole words of the source: no word character stands before or behind them. In
front of the word, each pattern asks for white space; behind it, for something
that cannot go on with a word, or for nothing at all.

The pattern of exports asks for no white space between a keyword and the name. So
where an identifier begins with a keyword and goes on, the keyword is cut off, and
only what is left of the identifier is reported (`reported_names`).
-/

namespace FileLore

open Pattern Extractor Text

variable {rule : ElementRule} {lead others : List Pattern} {source : List Char} {hit : Match}
  {label : String}

/-! ## Rules that name a word -/

/-- Whether a rule's pattern reads a word that it names, and what comes next leaves the word as it
is. -/
structure IsNaming (rule : ElementRule) (lead others : List Pattern) : Prop where
  searchable : IsSearchable rule 1
  pattern_eq : rule.pattern = sequence (lead ++ namedWord :: others)
  leadHolds : (sequence lead).roundsHoldNoGroup = true
  othersHold : (sequence others).holdsNoGroup = true
  leaves : (sequence others).LeavesRun isWordChar

/-- The name that a match remembers is a word behind what the pattern begins with, and nothing is
cut off behind it. -/
theorem IsNaming.named (h : IsNaming rule lead others)
    (hhit : hit ∈ rule.pattern.allMatches source) :
    ∃ mid name rest, (sequence lead).Reads (placeAt source hit.span.start) mid ∧
      mid.rest = name ++ rest ∧ IsWord name ∧ EndsRun isWordChar rest ∧
        hit.group? source 1 = some name := by
  have hscan := (isScan_iff h.searchable.holds h.searchable.reads).mpr
    (rfl : rule.pattern.allMatches source = _)
  obtain ⟨stop, hstop, heq⟩ := hscan.preferred hit hhit
  have hpreferred : rule.pattern.Prefers (placeAt source hit.span.start) stop := hstop
  rw [h.pattern_eq] at hpreferred
  obtain ⟨mid, hmid, hnamed⟩ := hpreferred.later
  have hread := (mem_readings h.leadHolds).mp hmid
  obtain ⟨read, -, hoffset, hrest⟩ := hread.ahead
  have hsource : source.drop mid.offset = mid.rest := by
    rw [hoffset, hrest, placeAt, List.drop_drop]
  obtain ⟨name, rest, hsplit, hne, hall, hend, hname⟩ := hnamed.run h.leaves h.othersHold hsource
  refine ⟨mid, name, rest, hread, hsplit, ⟨hne, hall⟩, hend, ?_⟩
  rw [Match.group?, heq]
  exact hname

/-- Whether a word stands somewhere in a text with no word character before it or behind it. -/
def OccursWhole (name source : List Char) : Prop :=
  ∃ before after, source = before ++ (name ++ after) ∧ EndsRun isWordChar before.reverse ∧
    EndsRun isWordChar after

/-- Whether a word stands somewhere in a text directly behind the keyword of an export, with no
word character behind it. -/
def OccursCut (name source : List Char) : Prop :=
  ∃ before head after, source = before ++ (head ++ (name ++ after)) ∧ ExportHead head ∧
    EndsRun isWordChar after

theorem take_append_placeAt (source : List Char) (offset : Nat) :
    source = source.take offset ++ (placeAt source offset).rest :=
  (List.take_append_drop offset source).symm

/-- A word behind white space is whole, if nothing is cut off behind it. -/
theorem occursWhole_of_blank {offset : Nat} {text name rest : List Char} {c : Char}
    (hc : isBlank c = true) (hend : EndsRun isWordChar rest)
    (h : (placeAt source offset).rest = text ++ c :: (name ++ rest)) :
    OccursWhole name source := by
  refine ⟨source.take offset ++ (text ++ [c]), rest, ?_, ?_, hend⟩
  · rw [List.append_assoc, List.append_assoc]
    exact (take_append_placeAt source offset).trans (congrArg _ h)
  · rw [List.reverse_append, List.reverse_append]
    exact endsRun_cons.mpr (isWordChar_of_isBlank hc)

/-- **A name behind white space is whole.** -/
theorem IsNaming.occursWhole (h : IsNaming rule lead others)
    (hlead : (sequence lead).EndsIn isBlank) (hhit : hit ∈ rule.pattern.allMatches source) :
    ∃ name, hit.group? source 1 = some name ∧ IsWord name ∧ OccursWhole name source := by
  obtain ⟨mid, name, rest, hread, hsplit, hword, hend, hname⟩ := h.named hhit
  obtain ⟨text, c, hc, htext⟩ := hlead _ _ hread
  rw [hsplit] at htext
  exact ⟨name, hname, hword, occursWhole_of_blank hc hend htext⟩

/-! ## The rules -/

theorem endsIn_gap : gap.EndsIn isBlank := endsIn_oneOrMore

theorem followsRun_gap : gap.FollowsRun isWordChar :=
  followsRun_oneOrMore fun _ => isWordChar_of_isBlank

theorem followsRun_bracketed : bracketed.FollowsRun isWordChar :=
  (followsRun_literal rfl (by decide)).cons _

/-- An opening bracket, perhaps behind white space, leaves a word as it is. -/
theorem leavesRun_opening : (sequence [mayGap, literal "("]).LeavesRun isWordChar :=
  .inl (.many_cons (fun _ => isWordChar_of_isBlank) (followsRun_literal rfl (by decide)))

theorem isNaming_pythonClass :
    IsNaming pythonClass [literal "class", gap] [optional bracketed, literal ":"] :=
  ⟨isSearchable_pythonClass, rfl, rfl, rfl,
    .inl (followsRun_bracketed.optional_cons (followsRun_literal rfl (by decide)))⟩

theorem isNaming_pythonFunction :
    IsNaming pythonFunction [literal "def", gap] [mayGap, bracketed, literal ":"] :=
  ⟨isSearchable_pythonFunction, rfl, rfl, rfl,
    .inl (.many_cons (fun _ => isWordChar_of_isBlank) (followsRun_bracketed.cons _))⟩

theorem isNaming_scriptFunction :
    IsNaming scriptFunction [literal "function", gap] [mayGap, literal "("] :=
  ⟨isSearchable_scriptFunction, rfl, rfl, rfl, leavesRun_opening⟩

theorem isNaming_scriptArrow :
    IsNaming scriptArrow [choice [literal "const", literal "let", literal "var"], gap]
      [mayGap, literal "=", mayGap, repeated (either bracketed (one (· != '='))), literal "=>"] :=
  ⟨isSearchable_scriptArrow, rfl, rfl, rfl, .inl (.many_cons (fun _ => isWordChar_of_isBlank)
    ((followsRun_literal rfl (by decide)).cons _))⟩

theorem isNaming_scriptClass :
    IsNaming scriptClass [literal "class", gap]
      [optional (sequence [gap, literal "extends", gap, oneOrMore isWordChar])] :=
  ⟨isSearchable_scriptClass, rfl, rfl, rfl, .inr fun _ => List.append_ne_nil_of_right_ne_nil _
    (List.cons_ne_nil _ _)⟩

theorem isNaming_scriptExport : IsNaming scriptExport exportLead [] :=
  ⟨isSearchable_scriptExport, rfl, rfl, rfl, .inr fun _ => List.cons_ne_nil _ _⟩

theorem isNaming_goFunction :
    IsNaming goFunction [literal "func", gap, optional (sequence [bracketed, gap])]
      [mayGap, literal "("] :=
  ⟨isSearchable_goFunction, rfl, rfl, rfl, leavesRun_opening⟩

theorem isNaming_goStruct : IsNaming goStruct [literal "type", gap] [gap, literal "struct"] :=
  ⟨isSearchable_goStruct, rfl, rfl, rfl, .inl (followsRun_gap.cons _)⟩

theorem isNaming_goInterface :
    IsNaming goInterface [literal "type", gap] [gap, literal "interface"] :=
  ⟨isSearchable_goInterface, rfl, rfl, rfl, .inl (followsRun_gap.cons _)⟩

/-- An exported name is whole, or stands behind the keyword of an export. -/
theorem export_occurs (hhit : hit ∈ scriptExport.pattern.allMatches source) :
    ∃ name, hit.group? source 1 = some name ∧ IsWord name ∧
      (OccursWhole name source ∨ OccursCut name source) := by
  obtain ⟨mid, name, rest, hread, hsplit, hword, hend, hname⟩ := isNaming_scriptExport.named hhit
  refine ⟨name, hname, hword, ?_⟩
  rcases blank_or_exportHead_of_reads hread with ⟨text, c, hc, htext⟩ | ⟨head, hhead, htext⟩
  · rw [hsplit] at htext
    exact .inl (occursWhole_of_blank hc hend htext)
  · rw [hsplit] at htext
    refine .inr ⟨source.take hit.span.start, head, rest, ?_, hhead, hend⟩
    exact (take_append_placeAt source hit.span.start).trans (congrArg _ htext)

/-- What observations that tell names begin with, rule by rule. -/
inductive NameRule : String → ElementRule → Prop where
  | pythonClass : NameRule "Defines class: " pythonClass
  | pythonFunction : NameRule "Defines function: " pythonFunction
  | scriptFunction : NameRule "Defines function: " scriptFunction
  | scriptArrow : NameRule "Defines arrow function: " scriptArrow
  | scriptClass : NameRule "Defines class: " scriptClass
  | scriptExport : NameRule "Exports: " scriptExport
  | goFunction : NameRule "Defines function: " goFunction
  | goStruct : NameRule "Defines struct: " goStruct
  | goInterface : NameRule "Defines interface: " goInterface

theorem NameRule.report_eq {groups : Nat → Option String} {told : String} (h : NameRule label rule)
    (htold : rule.report groups = some told) :
    ∃ name, groups 1 = some name ∧ told = label ++ name := by
  cases h with
  | pythonFunction =>
    obtain ⟨name, hname, hpublic⟩ := Option.bind_eq_some_iff.mp htold
    refine ⟨name, hname, ?_⟩
    by_cases hprivate : (name.toList.head? == some '_') = true
    · rw [if_pos hprivate] at hpublic
      cases hpublic
    · rw [if_neg hprivate] at hpublic
      exact (Option.some.inj hpublic).symm
  | _ =>
    obtain ⟨name, hname, rfl⟩ := Option.map_eq_some_iff.mp htold
    exact ⟨name, hname, rfl⟩

theorem NameRule.name {label : String} (h : NameRule label rule)
    (hhit : hit ∈ rule.pattern.allMatches source) :
    ∃ name, hit.group? source 1 = some name ∧ IsWord name ∧
      (OccursWhole name source ∨ label = "Exports: " ∧ OccursCut name source) := by
  have hwhole {lead others : List Pattern} (hnaming : IsNaming rule lead others)
      (hlead : (sequence lead).EndsIn isBlank) : ∃ name, hit.group? source 1 = some name ∧
        IsWord name ∧ (OccursWhole name source ∨ label = "Exports: " ∧ OccursCut name source) := by
    obtain ⟨name, hname, hword, hoccurs⟩ := hnaming.occursWhole hlead hhit
    exact ⟨name, hname, hword, .inl hoccurs⟩
  cases h with
  | pythonClass => exact hwhole isNaming_pythonClass (EndsIn.cons endsIn_gap _)
  | pythonFunction => exact hwhole isNaming_pythonFunction (EndsIn.cons endsIn_gap _)
  | scriptFunction => exact hwhole isNaming_scriptFunction (EndsIn.cons endsIn_gap _)
  | scriptArrow => exact hwhole isNaming_scriptArrow (EndsIn.cons endsIn_gap _)
  | scriptClass => exact hwhole isNaming_scriptClass (EndsIn.cons endsIn_gap _)
  | scriptExport =>
    obtain ⟨name, hname, hword, hoccurs⟩ := export_occurs hhit
    exact ⟨name, hname, hword, hoccurs.imp_right fun hcut => ⟨rfl, hcut⟩⟩
  | goFunction =>
    exact hwhole isNaming_goFunction (.cons (endsIn_gap.then_optional (EndsIn.cons endsIn_gap _)) _)
  | goStruct => exact hwhole isNaming_goStruct (EndsIn.cons endsIn_gap _)
  | goInterface => exact hwhole isNaming_goInterface (EndsIn.cons endsIn_gap _)

/-! ## All observations -/

/-- What observations that tell names begin with. -/
def nameLabels : List String :=
  ["Defines class: ", "Defines function: ", "Defines arrow function: ", "Defines struct: ",
    "Defines interface: ", "Exports: "]

/-- What observations that tell imports begin with. -/
def importLabels : List String := ["Imports: ", "Imports from "]

theorem NameRule.label_mem (h : NameRule label rule) : label ∈ nameLabels := by
  cases h <;> decide

/-- All rules for languages other than Python name something. -/
theorem exists_nameRule {language : Language} (hlanguage : language ≠ .python)
    (h : rule ∈ (forLanguage language).rules) : ∃ label, NameRule label rule := by
  cases language with
  | python => exact absurd rfl hlanguage
  | javaScript | typeScript =>
    simp only [forLanguage, script, List.mem_cons, List.not_mem_nil, or_false] at h
    rcases h with rfl | rfl | rfl | rfl
    · exact ⟨_, .scriptFunction⟩
    · exact ⟨_, .scriptArrow⟩
    · exact ⟨_, .scriptClass⟩
    · exact ⟨_, .scriptExport⟩
  | go =>
    simp only [forLanguage, go, List.mem_cons, List.not_mem_nil, or_false] at h
    rcases h with rfl | rfl | rfl
    · exact ⟨_, .goFunction⟩
    · exact ⟨_, .goStruct⟩
    · exact ⟨_, .goInterface⟩
  | _ => exact absurd h List.not_mem_nil

theorem nameRule_or_import {language : Language} (h : rule ∈ (forLanguage language).rules) :
    (∃ label, NameRule label rule) ∨ rule = pythonImport := by
  by_cases hlanguage : language = .python
  · subst hlanguage
    simp only [forLanguage, python, List.mem_cons, List.not_mem_nil, or_false] at h
    rcases h with rfl | rfl | rfl
    · exact .inl ⟨_, .pythonClass⟩
    · exact .inl ⟨_, .pythonFunction⟩
    · exact .inr rfl
  · exact .inl (exists_nameRule hlanguage h)

theorem pythonImport_report_eq {groups : Nat → Option String} {told : String}
    (h : pythonImport.report groups = some told) :
    ∃ label ∈ importLabels, ∃ rest, told = label ++ rest := by
  obtain ⟨items, -, htold⟩ := Option.bind_eq_some_iff.mp h
  cases horigin : groups 1 with
  | none =>
    rw [horigin] at htold
    exact ⟨"Imports: ", by decide, items, (Option.some.inj htold).symm⟩
  | some origin =>
    rw [horigin] at htold
    refine ⟨"Imports from ", by decide, origin ++ ": " ++ items, ?_⟩
    rw [← Option.some.inj htold, String.append_assoc, String.append_assoc, String.append_assoc]

/-- An observation begins with one label only. -/
theorem label_unique {other name rest : String} (hlabel : label ∈ nameLabels ++ importLabels)
    (hother : other ∈ nameLabels ++ importLabels) (h : label ++ name = other ++ rest) :
    label = other ∧ name = rest := by
  have hfree : PrefixFree (nameLabels ++ importLabels) := by decide
  have htext := congrArg String.toList h
  rw [String.toList_append, String.toList_append] at htext
  obtain rfl := hfree.eq_of_prefix hlabel hother (List.prefix_append _ name.toList)
    (htext ▸ List.prefix_append _ _)
  exact ⟨rfl, String.toList_inj.mp (List.append_cancel_left htext)⟩

/-- An observation that begins with the label of a name tells what a match remembers. -/
theorem exists_hit_of_mem_observations {language : Language} {source name : String}
    (hlabel : label ∈ nameLabels) (h : label ++ name ∈ language.observations source) :
    ∃ rule, NameRule label rule ∧ ∃ hit ∈ rule.pattern.allMatches source.toList,
      (hit.group? source.toList 1).map String.ofList = some name := by
  have hmem := List.mem_append_left importLabels hlabel
  obtain ⟨rule, hrule, htold⟩ := List.mem_flatMap.mp h
  obtain ⟨hit, hhit, hreport⟩ := List.mem_filterMap.mp htold
  rcases nameRule_or_import hrule with ⟨other, hother⟩ | rfl
  · obtain ⟨found, hfound, heq⟩ := hother.report_eq hreport
    obtain ⟨rfl, rfl⟩ := label_unique hmem (List.mem_append_left importLabels hother.label_mem) heq
    exact ⟨rule, hother, hit, hhit, hfound⟩
  · obtain ⟨other, hother, rest, heq⟩ := pythonImport_report_eq hreport
    obtain ⟨rfl, -⟩ := label_unique hmem (List.mem_append_right nameLabels hother) heq
    have hapart : ∀ label ∈ nameLabels, label ∉ importLabels := by decide
    exact absurd hother (hapart label hlabel)

/-- An exported identifier that begins with a keyword and goes on is cut. -/
theorem export_cut {head name after : List Char} (hhead : ExportHead head) (hname : IsWord name)
    (hafter : EndsRun isWordChar after) (hhit : hit ∈ scriptExport.pattern.allMatches source)
    (hstart : source.drop hit.span.start = head ++ (name ++ after)) :
    hit.group? source 1 = some name := by
  have hholds := isSearchable_scriptExport.holds
  have hscan := (isScan_iff hholds isSearchable_scriptExport.reads).mpr
    (rfl : scriptExport.pattern.allMatches source = _)
  have hmatch := (matchAt?_eq_some hholds).mpr ⟨rfl, hscan.preferred hit hhit⟩
  have htakes : scriptExport.pattern.Takes (head ++ name) after [(1, name)] :=
    hhead.takes (fun _ hc => absurd hc List.not_mem_nil) hname hafter
  rw [← List.append_assoc] at hstart
  obtain ⟨found, hfound, -, hgroup⟩ := htakes.matchAt? hholds hstart
  rw [hstart, hfound] at hmatch
  rw [← Option.some.inj hmatch, hgroup]
  rfl

/-- **Reported names are whole words, except of exports**: what stands between the keyword of an
export and the name may be nothing, so an identifier that begins with a keyword and goes on is
reported without it, and this is the only way for a name to be cut. -/
theorem reported_names (language : Language) (source : String) :
    (∀ label ∈ nameLabels, ∀ name : String, label ++ name ∈ language.observations source →
      IsWord name.toList ∧ (OccursWhole name.toList source.toList ∨
        label = "Exports: " ∧ OccursCut name.toList source.toList)) ∧
    (language = .javaScript ∨ language = .typeScript →
      ∀ hit ∈ scriptExport.pattern.allMatches source.toList, ∀ head name after,
        ExportHead head → IsWord name → EndsRun isWordChar after →
          source.toList.drop hit.span.start = head ++ (name ++ after) →
            "Exports: " ++ String.ofList name ∈ language.observations source) := by
  constructor
  · intro label hlabel name hmem
    obtain ⟨rule, hrule, hit, hhit, hname⟩ := exists_hit_of_mem_observations hlabel hmem
    obtain ⟨found, hfound, hword, hoccurs⟩ := hrule.name hhit
    rw [hfound] at hname
    obtain rfl : String.ofList found = name := Option.some.inj hname
    rw [String.toList_ofList]
    exact ⟨hword, hoccurs⟩
  · intro hlanguage hit hhit head name after hhead hname hafter hstart
    have hgroup := export_cut hhead hname hafter hhit hstart
    have hrule : scriptExport ∈ (forLanguage language).rules := by
      rcases hlanguage with rfl | rfl <;> simp [forLanguage, script]
    refine List.mem_flatMap.mpr ⟨scriptExport, hrule, List.mem_filterMap.mpr ⟨hit, hhit, ?_⟩⟩
    have hreport : scriptExport.report = labelled "Exports" := rfl
    rw [hreport, labelled, hgroup]
    rfl

/-- A default export of `classifier` is reported as one of `ifier`. -/
theorem reported_names_classifier :
    "Exports: " ++ "ifier" ∈ Language.javaScript.observations "export default classifier;" ∧
      IsWord "ifier".toList ∧ ¬OccursWhole "ifier".toList "export default classifier;".toList ∧
        OccursCut "ifier".toList "export default classifier;".toList := by
  obtain ⟨hnames, hexports⟩ := reported_names .javaScript "export default classifier;"
  have hall : scriptExport.pattern.allMatches "export default classifier;".toList =
      [⟨⟨0, 25⟩, [(1, ⟨20, 25⟩)]⟩] := by rfl
  have hhit := hall ▸ List.mem_singleton_self _
  have hhead : ExportHead "export default class".toList :=
    ⟨[' '], "default".toList ++ [' '], "class", by decide, isGap_space, .present isGap_space,
      by decide⟩
  have hword : IsWord "ifier".toList := by decide
  have hmem := hexports (.inl rfl) _ hhit "export default class".toList "ifier".toList [';'] hhead
    hword (endsRun_cons.mpr (by decide)) (by decide)
  rw [String.ofList_toList] at hmem
  -- The word stands at one place only, and there a word character stands before it.
  have hplace : ∀ n < 26,
      "ifier".toList <+: "export default classifier;".toList.drop n → n = 20 := by
    decide
  have hwhole : ¬OccursWhole "ifier".toList "export default classifier;".toList := by
    rintro ⟨before, after, hsplit, hbefore, -⟩
    have hlength : 26 = before.length + ("ifier".toList ++ after).length :=
      (congrArg List.length hsplit).trans List.length_append
    have hlonger : 5 ≤ ("ifier".toList ++ after).length := by
      rw [List.length_append]
      exact Nat.le_add_right 5 _
    have hdrop : "export default classifier;".toList.drop before.length =
        "ifier".toList ++ after := by
      rw [hsplit, List.drop_left]
    have hbehind := hplace before.length (by omega) ⟨after, hdrop.symm⟩
    have htake : before = "export default classifier;".toList.take 20 := by
      rw [hsplit, ← hbehind, List.take_left]
    rw [htake] at hbefore
    exact absurd (endsRun_cons.mp hbefore) (by decide)
  obtain ⟨-, hoccurs⟩ := hnames "Exports: " (by decide) "ifier" hmem
  exact ⟨hmem, hword, hwhole, (hoccurs.resolve_left hwhole).2⟩

end FileLore
