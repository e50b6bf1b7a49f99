import FileLore.Proofs.Pattern.Scan
import FileLore.Source.Extractor
import Mathlib.Data.List.Forall2

/-!
# What an extraction consists of

The observations on a source text, told by the patterns of its language alone.
Every pattern scans the whole text; of each match one line is reported, in the
order of the text and with repetitions, except of Python functions whose names
begin with a low line. The lines of the patterns follow one another in the order
in which the patterns are listed, and languages without patterns have no lines
(`IsExtraction`). This says which lines there are, and the extractors report
these and no others (`isExtraction_iff`).
-/

namespace FileLore

open Pattern Extractor

variable {rule : ElementRule} {source : List Char}

/-- Whether the names are those that the matches of a rule remember, match by match. -/
def IsNames (rule : ElementRule) (source : List Char) (names : List String) : Prop :=
  ∃ hits, rule.pattern.IsScan source hits ∧
    List.Forall₂ (fun hit name => (hit.group? source 1).map String.ofList = some name) hits names

/-- Whether the imports are those of a Python source: the module that names are imported from, if
the statement says so, and what is imported. -/
def IsImports (source : List Char) (imports : List (Option String × String)) : Prop :=
  ∃ hits, pythonImport.pattern.IsScan source hits ∧
    List.Forall₂ (fun hit entry => (hit.group? source 1).map String.ofList = entry.1 ∧
      (hit.group? source 2).map String.ofList = some entry.2) hits imports

/-- The line that reports an import. -/
def importLine : Option String × String → String
  | (some origin, items) => "Imports from " ++ origin ++ ": " ++ items
  | (none, items) => "Imports: " ++ items

/-- Whether a name is private in Python. -/
def isPrivate (name : String) : Bool := name.toList.head? == some '_'

/-- The lines that an extraction from a text in some language consists of. -/
inductive IsExtraction (source : List Char) : Language → List String → Prop where
  | python {classes functions : List String} {imports : List (Option String × String)}
    (hclasses : IsNames pythonClass source classes)
    (hfunctions : IsNames pythonFunction source functions)
    (himports : IsImports source imports) :
    IsExtraction source .python
      (classes.map ("Defines class: " ++ ·) ++
        (functions.filter (!isPrivate ·)).map ("Defines function: " ++ ·) ++
        imports.map importLine)
  | script {language : Language} {functions arrows classes exports : List String}
    (hlanguage : language = .javaScript ∨ language = .typeScript)
    (hfunctions : IsNames scriptFunction source functions)
    (harrows : IsNames scriptArrow source arrows)
    (hclasses : IsNames scriptClass source classes)
    (hexports : IsNames scriptExport source exports) :
    IsExtraction source language
      (functions.map ("Defines function: " ++ ·) ++
        arrows.map ("Defines arrow function: " ++ ·) ++
        classes.map ("Defines class: " ++ ·) ++
        exports.map ("Exports: " ++ ·))
  | go {functions structs interfaces : List String}
    (hfunctions : IsNames goFunction source functions)
    (hstructs : IsNames goStruct source structs)
    (hinterfaces : IsNames goInterface source interfaces) :
    IsExtraction source .go
      (functions.map ("Defines function: " ++ ·) ++
        structs.map ("Defines struct: " ++ ·) ++
        interfaces.map ("Defines interface: " ++ ·))
  | other {language : Language}
    (hlanguage : language ∉ [.python, .javaScript, .typeScript, .go]) :
    IsExtraction source language []

/-! ## Rules -/

/-- Whether the form of a rule's pattern shows that there is exactly one scan by it and that each
match remembers a group. -/
structure IsSearchable (rule : ElementRule) (index : Nat) : Prop where
  holds : rule.pattern.roundsHoldNoGroup = true
  reads : rule.pattern.readsAlways = true
  remembers : rule.pattern.remembers index = true

theorem IsSearchable.group?_isSome {index : Nat} (h : IsSearchable rule index) {hit : Match}
    (hhit : hit ∈ rule.pattern.allMatches source) : (hit.group? source index).isSome := by
  have hscan := (isScan_iff h.holds h.reads).mpr (rfl : rule.pattern.allMatches source = _)
  obtain ⟨stop, hstop, -, hgroups⟩ := (hscan.preferred hit hhit).reads h.holds
  rw [Match.group?, Option.isSome_map, hgroups]
  exact hstop.remembered h.remembers

/-- Entries that stand for the items of a list one by one are what the items yield. -/
theorem forall₂_eq_some_iff {α β : Type} {f : α → Option β} {items : List α} :
    ∀ {entries : List β}, (∀ item ∈ items, (f item).isSome) →
      (List.Forall₂ (fun item entry => f item = some entry) items entries ↔
        entries = items.filterMap f) := by
  induction items with
  | nil =>
    intro entries _
    rw [List.forall₂_nil_left_iff]
    rfl
  | cons item items ih =>
    intro entries h
    obtain ⟨entry, hentry⟩ := Option.isSome_iff_exists.mp (h item (List.mem_cons_self ..))
    have ih' {entries : List β} := @ih entries fun other hother =>
      h other (List.mem_cons_of_mem _ hother)
    rw [List.filterMap_cons_some hentry, List.forall₂_cons_left_iff]
    constructor
    · intro ⟨first, rest, hfirst, hrest, heq⟩
      rw [hentry] at hfirst
      injection hfirst with hfirst
      rw [heq, hfirst, ih'.mp hrest]
    · intro heq
      exact ⟨entry, _, hentry, ih'.mpr rfl, heq⟩

/-- What is told of the matches of a scan one by one is told of all matches. -/
theorem scan_entries_iff {β : Type} {index : Nat} (h : IsSearchable rule index)
    {f : Match → Option β} (hsome : ∀ hit, (hit.group? source index).isSome → (f hit).isSome)
    {entries : List β} :
    (∃ hits, rule.pattern.IsScan source hits ∧
        List.Forall₂ (fun hit entry => f hit = some entry) hits entries) ↔
      entries = (rule.pattern.allMatches source).filterMap f := by
  have hall : ∀ hit ∈ rule.pattern.allMatches source, (f hit).isSome := fun hit hhit =>
    hsome hit (h.group?_isSome hhit)
  constructor
  · intro ⟨hits, hscan, hentries⟩
    rw [isScan_iff h.holds h.reads] at hscan
    subst hscan
    exact (forall₂_eq_some_iff hall).mp hentries
  · intro heq
    exact ⟨_, (isScan_iff h.holds h.reads).mpr rfl, (forall₂_eq_some_iff hall).mpr heq⟩

theorem isNames_iff (h : IsSearchable rule 1) {names : List String} :
    IsNames rule source names ↔ names = (rule.pattern.allMatches source).filterMap fun hit =>
      (hit.group? source 1).map String.ofList :=
  scan_entries_iff h fun hit hhit => by rwa [Option.isSome_map]

theorem exists_isNames (h : IsSearchable rule 1) (source : List Char) :
    ∃ names, IsNames rule source names :=
  ⟨_, (isNames_iff h).mpr rfl⟩

/-- A rule with a label reports every name under this label. -/
theorem labelled_observations {label : String} (h : IsSearchable rule 1)
    (hreport : rule.report = labelled label) {names : List String}
    (hnames : IsNames rule source names) :
    rule.observations source = names.map (label ++ ": " ++ ·) := by
  rw [(isNames_iff h).mp hnames, List.map_filterMap, ElementRule.observations, hreport]
  rfl

/-! ## Python -/

theorem isSearchable_pythonClass : IsSearchable pythonClass 1 := ⟨rfl, rfl, rfl⟩

theorem isSearchable_pythonFunction : IsSearchable pythonFunction 1 := ⟨rfl, rfl, rfl⟩

theorem isSearchable_pythonImport : IsSearchable pythonImport 2 := ⟨rfl, rfl, rfl⟩

/-- Functions are reported unless they are private. -/
theorem pythonFunction_observations {functions : List String}
    (h : IsNames pythonFunction source functions) :
    pythonFunction.observations source =
      (functions.filter (!isPrivate ·)).map ("Defines function: " ++ ·) := by
  have hreport : (fun name => if isPrivate name then none else some ("Defines function: " ++ name)) =
      fun name => Option.map ("Defines function: " ++ ·) (Option.guard (!isPrivate ·) name) := by
    funext name
    cases h : isPrivate name <;> simp [Option.guard, h]
  -- Both sides as one pass over the matches.
  rw [(isNames_iff isSearchable_pythonFunction).mp h, ← List.filterMap_eq_filter,
    List.map_filterMap, ← hreport, List.filterMap_filterMap]
  rfl

/-- What an import statement imports, and from where. -/
def importOf? (source : List Char) (hit : Match) : Option (Option String × String) :=
  ((hit.group? source 2).map String.ofList).map fun items =>
    ((hit.group? source 1).map String.ofList, items)

/-- The imports of a source are what its import statements tell. -/
theorem isImports_iff {imports : List (Option String × String)} :
    IsImports source imports ↔
      imports = (pythonImport.pattern.allMatches source).filterMap (importOf? source) := by
  have hentry : (fun hit entry => (hit.group? source 1).map String.ofList = entry.1 ∧
      (hit.group? source 2).map String.ofList = some entry.2) =
        fun hit (entry : Option String × String) => importOf? source hit = some entry := by
    funext hit entry
    obtain ⟨origin, items⟩ := entry
    rw [importOf?]
    cases hit.group? source 2 with
    | none => simp
    | some found => simp
  rw [IsImports, hentry]
  refine scan_entries_iff isSearchable_pythonImport fun hit hhit => ?_
  rw [importOf?, Option.isSome_map, Option.isSome_map]
  exact hhit

theorem pythonImport_observations {imports : List (Option String × String)}
    (h : IsImports source imports) :
    pythonImport.observations source = imports.map importLine := by
  rw [isImports_iff.mp h, List.map_filterMap, ElementRule.observations]
  refine congrArg (List.filterMap · _) (funext fun hit => ?_)
  dsimp only [pythonImport, importOf?]
  cases hit.group? source 2 with
  | none => rfl
  | some items => cases hit.group? source 1 <;> rfl

/-- What is reported of a Python source. -/
theorem python_observations {source : String} {classes functions : List String}
    {imports : List (Option String × String)} (hclasses : IsNames pythonClass source.toList classes)
    (hfunctions : IsNames pythonFunction source.toList functions)
    (himports : IsImports source.toList imports) :
    Extractor.python.observations source =
      classes.map ("Defines class: " ++ ·) ++
        (functions.filter (!isPrivate ·)).map ("Defines function: " ++ ·) ++
        imports.map importLine := by
  rw [Extractor.observations, Extractor.python]
  simp only [List.flatMap_cons, List.flatMap_nil, List.append_nil]
  rw [labelled_observations isSearchable_pythonClass rfl hclasses,
    pythonFunction_observations hfunctions, pythonImport_observations himports, List.append_assoc]
  rfl

/-- The observations on a Python source, rule by rule. -/
theorem observations_python (source : String) :
    Language.python.observations source =
      pythonClass.observations source.toList ++ (pythonFunction.observations source.toList ++
        pythonImport.observations source.toList) := by
  show Extractor.python.observations source = _
  unfold Extractor.observations Extractor.python
  simp only [List.flatMap_cons, List.flatMap_nil, List.append_nil]

/-! ## JavaScript and TypeScript -/

theorem isSearchable_scriptFunction : IsSearchable scriptFunction 1 := ⟨rfl, rfl, rfl⟩

theorem isSearchable_scriptArrow : IsSearchable scriptArrow 1 := ⟨rfl, rfl, rfl⟩

theorem isSearchable_scriptClass : IsSearchable scriptClass 1 := ⟨rfl, rfl, rfl⟩

theorem isSearchable_scriptExport : IsSearchable scriptExport 1 := ⟨rfl, rfl, rfl⟩

theorem script_observations {source : String} {functions arrows classes exports : List String}
    (hfunctions : IsNames scriptFunction source.toList functions)
    (harrows : IsNames scriptArrow source.toList arrows)
    (hclasses : IsNames scriptClass source.toList classes)
    (hexports : IsNames scriptExport source.toList exports) :
    Extractor.script.observations source =
      functions.map ("Defines function: " ++ ·) ++
        arrows.map ("Defines arrow function: " ++ ·) ++
        classes.map ("Defines class: " ++ ·) ++
        exports.map ("Exports: " ++ ·) := by
  rw [Extractor.observations, Extractor.script]
  simp only [List.flatMap_cons, List.flatMap_nil, List.append_nil]
  rw [labelled_observations isSearchable_scriptFunction rfl hfunctions,
    labelled_observations isSearchable_scriptArrow rfl harrows,
    labelled_observations isSearchable_scriptClass rfl hclasses,
    labelled_observations isSearchable_scriptExport rfl hexports, List.append_assoc,
    List.append_assoc]
  rfl

/-! ## Go -/

theorem isSearchable_goFunction : IsSearchable goFunction 1 := ⟨rfl, rfl, rfl⟩

theorem isSearchable_goStruct : IsSearchable goStruct 1 := ⟨rfl, rfl, rfl⟩

theorem isSearchable_goInterface : IsSearchable goInterface 1 := ⟨rfl, rfl, rfl⟩

theorem go_observations {source : String} {functions structs interfaces : List String}
    (hfunctions : IsNames goFunction source.toList functions)
    (hstructs : IsNames goStruct source.toList structs)
    (hinterfaces : IsNames goInterface source.toList interfaces) :
    Extractor.go.observations source =
      functions.map ("Defines function: " ++ ·) ++
        structs.map ("Defines struct: " ++ ·) ++
        interfaces.map ("Defines interface: " ++ ·) := by
  rw [Extractor.observations, Extractor.go]
  simp only [List.flatMap_cons, List.flatMap_nil, List.append_nil]
  rw [labelled_observations isSearchable_goFunction rfl hfunctions,
    labelled_observations isSearchable_goStruct rfl hstructs,
    labelled_observations isSearchable_goInterface rfl hinterfaces, List.append_assoc]
  rfl

/-! ## All languages -/

/-- What an extraction consists of is what is reported. -/
theorem IsExtraction.eq_observations {source : String} {language : Language} {lines : List String}
    (h : IsExtraction source.toList language lines) : lines = language.observations source := by
  cases h with
  | python hclasses hfunctions himports =>
    exact (python_observations hclasses hfunctions himports).symm
  | script hlanguage hfunctions harrows hclasses hexports =>
    have hscript := script_observations hfunctions harrows hclasses hexports
    rcases hlanguage with heq | heq
    · rw [heq]
      exact hscript.symm
    · rw [heq]
      exact hscript.symm
  | go hfunctions hstructs hinterfaces =>
    exact (go_observations hfunctions hstructs hinterfaces).symm
  | other hlanguage =>
    cases language <;> first | rfl | exact absurd (by decide) hlanguage

theorem exists_isExtraction (source : List Char) (language : Language) :
    ∃ lines, IsExtraction source language lines := by
  by_cases hpython : language = .python
  · obtain ⟨classes, hclasses⟩ := exists_isNames isSearchable_pythonClass source
    obtain ⟨functions, hfunctions⟩ := exists_isNames isSearchable_pythonFunction source
    subst hpython
    exact ⟨_, .python hclasses hfunctions (isImports_iff.mpr rfl)⟩
  by_cases hscript : language = .javaScript ∨ language = .typeScript
  · obtain ⟨functions, hfunctions⟩ := exists_isNames isSearchable_scriptFunction source
    obtain ⟨arrows, harrows⟩ := exists_isNames isSearchable_scriptArrow source
    obtain ⟨classes, hclasses⟩ := exists_isNames isSearchable_scriptClass source
    obtain ⟨exports, hexports⟩ := exists_isNames isSearchable_scriptExport source
    exact ⟨_, .script hscript hfunctions harrows hclasses hexports⟩
  by_cases hgo : language = .go
  · obtain ⟨functions, hfunctions⟩ := exists_isNames isSearchable_goFunction source
    obtain ⟨structs, hstructs⟩ := exists_isNames isSearchable_goStruct source
    obtain ⟨interfaces, hinterfaces⟩ := exists_isNames isSearchable_goInterface source
    subst hgo
    exact ⟨_, .go hfunctions hstructs hinterfaces⟩
  · have hother : language ∉ [.python, .javaScript, .typeScript, .go] := by
      simp [hpython, hgo, not_or.mp hscript]
    exact ⟨[], .other hother⟩

/-- **Extraction is exact**: the observations on a source text are what its language's patterns say,
no more and no less. -/
theorem isExtraction_iff (language : Language) (source : String) (lines : List String) :
    IsExtraction source.toList language lines ↔ lines = language.observations source := by
  constructor
  · exact fun h => h.eq_observations
  · intro heq
    obtain ⟨found, hfound⟩ := exists_isExtraction source.toList language
    rw [heq, ← hfound.eq_observations]
    exact hfound

end FileLore
