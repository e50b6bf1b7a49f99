import FileLore.Graph.Entity
import FileLore.Proofs.Source.PlainPython
import FileLore.Proofs.Source.WholeNames
import FileLore.Proofs.Text.Search

/-!
# Imports in the graph and in the observations

Two patterns look for imports from modules. That of the relations stops at the
word `import`; that of the observations takes the rest of the line as well and may
begin there. In a source of plain lines both come to the same: the relations of a
file are to the modules that its observations tell, in the same order and with the
same repetitions, apart from modules named relative to the file
(`ofImports_plain`).
-/

namespace FileLore

open Pattern Extractor Text

/-- The words that imports are made of. -/
def importKeywords : List String := ["from", "import"]

/-- A statement of plain shape. -/
inductive ImportStatement where
  /-- `import I` -/
  | imports (items : FullStretch importKeywords (· != '\n')) (tight : IsTight items.text)
  /-- `from M import I` -/
  | importsFrom (origin : FullStretch importKeywords (!isBlank ·))
    (items : FullStretch importKeywords (· != '\n')) (tight : IsTight items.text)
  /-- Anything else on one line. -/
  | other (filler : Stretch importKeywords (· != '\n'))

/-- A statement on a line, which may be indented. -/
structure ModuleLine where
  indent : Nat
  statement : ImportStatement

namespace ImportStatement

/-- The statement as it stands on the line, without the indentation. -/
def text : ImportStatement → List Char
  | imports items _ => "import".toList ++ ' ' :: items.text
  | importsFrom origin items _ =>
    "from".toList ++ ' ' :: (origin.text ++ ' ' :: ("import".toList ++ ' ' :: items.text))
  | other filler => filler.text

/-- What the statement imports: the module that names are imported from, if it says so, and what is
imported. -/
def import? : ImportStatement → Option (Option (List Char) × List Char)
  | imports items _ => some (none, items.text)
  | importsFrom origin items _ => some (some origin.text, items.text)
  | other _ => none

/-- The module that the statement imports names from. -/
def origin? : ImportStatement → Option (List Char)
  | importsFrom origin _ _ => some origin.text
  | _ => none

theorem isKeyword_import : ∀ keyword ∈ importKeywords, IsKeyword keyword.toList := by
  decide

/-- A keyword that a part does not hold begins nowhere from the part to the end of the line. -/
theorem isAbsent_end {accepts : Char → Bool} (part : Stretch importKeywords accepts) :
    ∀ keyword ∈ importKeywords, ∀ rest, IsAbsent keyword.toList part.text ('\n' :: rest) :=
  fun keyword hmem _ =>
    isAbsent_of_notInfix (part.free keyword hmem) ((isKeyword_import keyword hmem).notMem rfl)

variable {statement : ImportStatement}

/-- The pattern of an import takes every statement of one as a whole. -/
theorem takes_import {entry : Option (List Char) × List Char} (h : statement.import? = some entry)
    (rest : List Char) :
    pythonImport.pattern.Takes statement.text ('\n' :: rest)
      (PythonStatement.importWords entry) := by
  cases statement with
  | imports items tight =>
    obtain rfl : (none, items.text) = entry := Option.some.inj h
    exact PythonStatement.takes_pythonImport items tight rest
  | importsFrom origin items tight =>
    obtain rfl : (some origin.text, items.text) = entry := Option.some.inj h
    exact PythonStatement.takes_pythonImport_from origin items tight rest
  | other => cases h

/-- The pattern of the origin takes a statement up to its second keyword. -/
theorem takes_importOrigin (origin : FullStretch importKeywords (!isBlank ·)) (rest : List Char) :
    importOrigin.Takes ("from".toList ++ ' ' :: (origin.text ++ ' ' :: "import".toList)) rest
      (named origin.text) :=
  PythonStatement.takes_origin origin (endsRun_cons.mpr rfl) (takes_literal "import" rest)

end ImportStatement

namespace ModuleLine

open ImportStatement

/-- The line with its end. -/
def text (line : ModuleLine) : List Char :=
  spaces line.indent ++ (line.statement.text ++ ['\n'])

/-- The source that consists of the lines. -/
def source (lines : List ModuleLine) : String :=
  String.ofList (lines.flatMap text)

theorem finds_pythonImport (lines : List ModuleLine) :
    pythonImport.pattern.Finds (lines.flatMap text)
      ((lines.filterMap (·.statement.import?)).map PythonStatement.importWords) := by
  refine finds_indented isSearchable_pythonImport.holds isSearchable_pythonImport.reads
    beginsWith_pythonImport isKeyword_import (fun line hnone => ?_) (fun line entry hentry => ?_)
    lines
  · obtain ⟨indent, statement⟩ := line
    cases statement with
    | imports | importsFrom => cases hnone
    | other filler => exact isAbsent_end filler
  · exact ⟨line.statement.text, [], (List.append_nil _).symm, fun keyword hmem rest =>
      isAbsent_nil _ _, takes_import hentry⟩

theorem finds_importOrigin (lines : List ModuleLine) :
    importOrigin.Finds (lines.flatMap text)
      ((lines.filterMap (·.statement.origin?)).map named) := by
  have hmem : ∀ keyword ∈ ["from"], keyword ∈ importKeywords := by decide
  have hkeyword : ∀ keyword ∈ ["from"], IsKeyword keyword.toList :=
    fun keyword h => isKeyword_import keyword (hmem keyword h)
  refine finds_indented rfl rfl (beginsWith_literal "from" _) hkeyword
    (fun line hnone keyword h rest => ?_) (fun line entry hentry => ?_) lines
  · obtain ⟨indent, statement⟩ := line
    cases statement with
    | imports items tight =>
      have hother : ¬keyword.toList <:+: "import".toList := by
        rw [List.mem_singleton.mp h]
        decide
      exact (hkeyword keyword h).isAbsent_part hother rfl
        (isAbsent_end items.toStretch keyword (hmem keyword h) rest)
    | importsFrom => cases hnone
    | other filler => exact isAbsent_end filler keyword (hmem keyword h) rest
  · obtain ⟨indent, statement⟩ := line
    cases statement with
    | importsFrom origin items tight =>
      obtain rfl : origin.text = entry := Option.some.inj hentry
      -- The match stops at the second keyword, and the items are left.
      refine ⟨"from".toList ++ ' ' :: (origin.text ++ ' ' :: "import".toList), ' ' :: items.text,
        ?_, fun keyword h rest => ?_, fun rest => takes_importOrigin origin _⟩
      · show "from".toList ++
          ' ' :: (origin.text ++ ' ' :: ("import".toList ++ ' ' :: items.text)) = _
        simp only [List.append_assoc, List.cons_append]
      · exact (hkeyword keyword h).isAbsent_sign rfl
          (isAbsent_end items.toStretch keyword (hmem keyword h) rest)
    | _ => cases hentry

/-- The modules that a plain source imports names from. -/
theorem importedModules_plain (lines : List ModuleLine) :
    importedModules (source lines) =
      ((lines.filterMap (·.statement.origin?)).filter (·.head? != some '.')).map String.ofList := by
  have hsource : (source lines).toList = lines.flatMap text := String.toList_ofList
  have hgroups := congrArg (List.filterMap fun group : Nat → Option (List Char) => group 1)
    ((finds_importOrigin lines).groups_allMatches rfl)
  rw [List.filterMap_map, List.filterMap_map, List.filterMap_map] at hgroups
  have horigins : (importOrigin.allMatches (lines.flatMap text)).filterMap
      (·.group? (lines.flatMap text) 1) = lines.filterMap (·.statement.origin?) :=
    hgroups.trans List.filterMap_some
  have hkept : (fun origin : List Char =>
      if origin.head? == some '.' then none else some (String.ofList origin)) = fun origin =>
        (Option.guard (·.head? != some '.') origin).map String.ofList := by
    funext origin
    by_cases hrelative : origin.head? = some '.' <;> simp [Option.guard, hrelative]
  unfold importedModules
  rw [hsource]
  dsimp only
  rw [horigins, hkept, ← List.map_filterMap, List.filterMap_eq_filter]

end ModuleLine

/-! ## Observations -/

/-- The module that an observation tells names to be imported from: what it has between its
beginning and the colon in front of the items. -/
def reportedOrigin? (observation : String) : Option (List Char) :=
  (afterStart? "Imports from ".toList observation.toList).map fun rest =>
    (rest.takeWhile (!isBlank ·)).dropLast

/-- The module is read off what is told of an import. -/
theorem reportedOrigin?_importLine {origin : List Char} (h : ∀ c ∈ origin, isBlank c = false)
    (items : String) : reportedOrigin? (importLine (some (String.ofList origin), items)) =
      some origin := by
  have htext : (importLine (some (String.ofList origin), items)).toList =
      "Imports from ".toList ++ (origin ++ ':' :: ' ' :: items.toList) := by
    show ("Imports from " ++ String.ofList origin ++ ": " ++ items).toList = _
    rw [String.toList_append, String.toList_append, String.toList_append, List.append_assoc,
      List.append_assoc]
    exact congrArg (fun text => "Imports from ".toList ++ (text ++ ':' :: ' ' :: items.toList))
      String.toList_ofList
  have hword : ∀ c ∈ origin ++ [':'], (!isBlank c) = true := by
    intro c hc
    rcases List.mem_append.mp hc with hc | hc
    · simp [h c hc]
    · rw [List.mem_singleton.mp hc]
      rfl
  have hrun : (origin ++ ':' :: ' ' :: items.toList).takeWhile (!isBlank ·) = origin ++ [':'] := by
    rw [List.append_cons, List.takeWhile_append_of_pos hword]
    simp [show isBlank ' ' = true from rfl]
  rw [reportedOrigin?, htext, afterStart?_eq_some_iff.mpr rfl, Option.map_some, hrun,
    List.dropLast_concat]

/-- No module is read off what is told under another label. -/
theorem reportedOrigin?_eq_none {label : String} (h : label ∈ nameLabels ++ importLabels)
    (hne : label ≠ "Imports from ") (rest : String) : reportedOrigin? (label ++ rest) = none := by
  rw [reportedOrigin?, Option.map_eq_none_iff, Option.eq_none_iff_forall_ne_some]
  intro after hafter
  have htext : label ++ rest = "Imports from " ++ String.ofList after := by
    rw [← String.toList_inj, afterStart?_eq_some_iff.mp hafter, String.toList_append]
    exact congrArg (_ ++ ·) String.toList_ofList.symm
  exact hne (label_unique h (by decide) htext).1

/-- Rules that tell names tell of no imports. -/
theorem NameRule.reportedOrigin? {label : String} {rule : ElementRule} (h : NameRule label rule)
    (source : List Char) : (rule.observations source).filterMap reportedOrigin? = [] := by
  rw [List.filterMap_eq_nil_iff]
  intro told htold
  obtain ⟨hit, -, hreport⟩ := List.mem_filterMap.mp htold
  obtain ⟨name, -, rfl⟩ := h.report_eq hreport
  have hlabel := h.label_mem
  refine reportedOrigin?_eq_none (List.mem_append_left importLabels hlabel) (fun heq => ?_) name
  exact absurd (heq ▸ hlabel) (by decide)

/-- The observations on a plain source tell the modules that its lines import names from. -/
theorem reportedOrigins_plain (lines : List ModuleLine) :
    (Language.python.observations (ModuleLine.source lines)).filterMap reportedOrigin? =
      lines.filterMap (·.statement.origin?) := by
  have hsource : (ModuleLine.source lines).toList = lines.flatMap ModuleLine.text :=
    String.toList_ofList
  rw [observations_python, List.filterMap_append, List.filterMap_append,
    NameRule.pythonClass.reportedOrigin?, NameRule.pythonFunction.reportedOrigin?, hsource,
    imports_of_finds (ModuleLine.finds_pythonImport lines), List.nil_append, List.nil_append,
    List.filterMap_map, List.filterMap_filterMap]
  refine congrArg (List.filterMap · lines) (funext fun line => ?_)
  obtain ⟨indent, statement⟩ := line
  cases statement with
  | imports items tight => exact reportedOrigin?_eq_none (by decide) (by decide) _
  | importsFrom origin items tight =>
    refine reportedOrigin?_importLine (fun c hc => ?_) _
    simpa using origin.accepted c hc
  | other filler => rfl

/-! ## Relations -/

/-- **The relations of a file and the observations on it tell of the same imports.** The relations
lead from the node of the file to the modules that are reported, in this order and with repetitions,
but for modules named relative to the file; and reported are those that the lines name. -/
theorem ofImports_plain (lines : List ModuleLine) {path : String}
    (hpath : ".py".toList <:+ path.toList) :
    (Relation.ofImports path (ModuleLine.source lines) =
      (((Language.python.observations (ModuleLine.source lines)).filterMap reportedOrigin?).filter
        (·.head? != some '.')).map fun origin =>
          ⟨Path.baseName path, String.ofList origin, "imports"⟩) ∧
      (Language.python.observations (ModuleLine.source lines)).filterMap reportedOrigin? =
        lines.filterMap (·.statement.origin?) := by
  refine ⟨?_, reportedOrigins_plain lines⟩
  rw [reportedOrigins_plain, Relation.ofImports, if_pos (List.isSuffixOf_iff_suffix.mpr hpath),
    ModuleLine.importedModules_plain, List.map_map]
  rfl

/-- A file with an import from a module, one relative to it, another line and an import. -/
theorem ofImports_plain_main : ∃ lines : List ModuleLine,
    ModuleLine.source lines =
      "from os import path\nfrom .local import name\nclass A:\n  import sys\n" ∧
    ".py".toList <:+ "package/main.py".toList ∧
    Relation.ofImports "package/main.py" (ModuleLine.source lines) =
      [⟨"main.py", "os", "imports"⟩] := by
  have htight {c : Char} {more : List Char} (hc : isBlank c = false) : IsTight (c :: more) := by
    intro d hd
    rwa [← Option.some.inj hd]
  refine ⟨[⟨0, .importsFrom (.ofText 'o' ['s'] rfl) (.ofText 'p' "ath".toList rfl) (htight rfl)⟩,
    ⟨0, .importsFrom (.ofText '.' "local".toList rfl) (.ofText 'n' "ame".toList rfl) (htight rfl)⟩,
    ⟨0, .other (.ofText "class A:".toList rfl)⟩,
    ⟨2, .imports (.ofText 's' "ys".toList rfl) (htight rfl)⟩], by rfl, by decide, ?_⟩
  have hpath : ".py".toList <:+ "package/main.py".toList := by decide
  rw [(ofImports_plain _ hpath).1, (ofImports_plain _ hpath).2]
  rfl

end FileLore
