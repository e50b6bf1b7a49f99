import FileLore.Proofs.Source.PlainLines

/-!
# Python sources of plain shape

A Python source in which every line is a class, a function, an import or something
else, each in its plainest shape, is reported completely and exactly
(`python_observations_plain`): all classes, then all functions that are not
private, then all imports, each in the order of the lines and with repetitions. No
match crosses a line end, although the patterns could.
-/

namespace FileLore

open Pattern Extractor Text

/-- The words that statements of interest begin with. -/
def pythonKeywords : List String := ["class", "def", "from", "import"]

/-- A statement of plain shape. -/
inductive PythonStatement where
  /-- `class W:` -/
  | plainClass (name : PlainWord pythonKeywords)
  /-- `class W(A):` -/
  | derivedClass (name : PlainWord pythonKeywords)
    (bases : Stretch pythonKeywords fun c => c != ')' && c != '\n')
  /-- `def W(A):` -/
  | function (name : PlainWord pythonKeywords)
    (parameters : Stretch pythonKeywords fun c => c != ')' && c != '\n')
  /-- `import I` -/
  | imports (items : FullStretch pythonKeywords (· != '\n')) (tight : IsTight items.text)
  /-- `from M import I` -/
  | importsFrom (origin : FullStretch pythonKeywords (!isBlank ·))
    (items : FullStretch pythonKeywords (· != '\n')) (tight : IsTight items.text)
  /-- Anything else on one line. -/
  | other (filler : Stretch pythonKeywords (· != '\n'))

/-- A statement on a line, which may be indented. -/
structure PythonLine where
  indent : Nat
  statement : PythonStatement

namespace PythonStatement

/-- The statement as it stands on the line, without the indentation. -/
def text : PythonStatement → List Char
  | plainClass name => "class".toList ++ ' ' :: (name.text ++ [':'])
  | derivedClass name bases =>
    "class".toList ++ ' ' :: (name.text ++ '(' :: (bases.text ++ [')', ':']))
  | function name parameters =>
    "def".toList ++ ' ' :: (name.text ++ '(' :: (parameters.text ++ [')', ':']))
  | imports items _ => "import".toList ++ ' ' :: items.text
  | importsFrom origin items _ =>
    "from".toList ++ ' ' :: (origin.text ++ ' ' :: ("import".toList ++ ' ' :: items.text))
  | other filler => filler.text

/-- The class that the statement defines. -/
def className? : PythonStatement → Option (List Char)
  | plainClass name | derivedClass name _ => some name.text
  | _ => none

/-- The function that the statement defines. -/
def functionName? : PythonStatement → Option (List Char)
  | function name _ => some name.text
  | _ => none

/-- What the statement imports: the module that names are imported from, if it says so, and what is
imported. -/
def import? : PythonStatement → Option (Option (List Char) × List Char)
  | imports items _ => some (none, items.text)
  | importsFrom origin items _ => some (some origin.text, items.text)
  | _ => none

/-- The keywords in the statement. -/
def keywords : PythonStatement → List String
  | plainClass _ | derivedClass _ _ => ["class"]
  | function _ _ => ["def"]
  | imports _ _ => ["import"]
  | importsFrom _ _ _ => ["from", "import"]
  | other _ => []

theorem class_notMem_keywords {statement : PythonStatement} (h : statement.className? = none) :
    "class" ∉ statement.keywords := by
  cases statement with
  | plainClass | derivedClass => cases h
  | _ => simp [keywords]

theorem def_notMem_keywords {statement : PythonStatement} (h : statement.functionName? = none) :
    "def" ∉ statement.keywords := by
  cases statement with
  | function => cases h
  | _ => simp [keywords]

theorem import_notMem_keywords {statement : PythonStatement} (h : statement.import? = none) :
    ∀ keyword ∈ ["from", "import"], keyword ∉ statement.keywords := by
  cases statement with
  | imports | importsFrom => cases h
  | _ => simp [keywords]

theorem isKeyword_python : ∀ keyword ∈ pythonKeywords, IsKeyword keyword.toList := by
  decide

theorem keyword_notInfix : ∀ keyword ∈ pythonKeywords, ∀ other ∈ pythonKeywords,
    keyword ≠ other → ¬keyword.toList <:+: other.toList := by
  decide

/-- A keyword that a statement does not begin with occurs nowhere on its line. -/
theorem isAbsent {keyword : String} (hkeyword : keyword ∈ pythonKeywords)
    (statement : PythonStatement) (h : keyword ∉ statement.keywords) (rest : List Char) :
    IsAbsent keyword.toList statement.text ('\n' :: rest) := by
  have hword := isKeyword_python keyword hkeyword
  have hother {other : String} (hmem : other ∈ pythonKeywords) (hne : keyword ≠ other) :=
    keyword_notInfix keyword hkeyword other hmem hne
  have hend {accepts : Char → Bool} (part : Stretch pythonKeywords accepts) :
      IsAbsent keyword.toList part.text ('\n' :: rest) :=
    isAbsent_of_notInfix (part.free keyword hkeyword) (hword.notMem rfl)
  cases statement with
  | plainClass name =>
    refine hword.isAbsent_part (hother (by decide) (by simpa [keywords] using h)) rfl ?_
    exact hword.isAbsent_part (name.free keyword hkeyword) rfl (isAbsent_nil _ _)
  | derivedClass name bases =>
    refine hword.isAbsent_part (hother (by decide) (by simpa [keywords] using h)) rfl ?_
    refine hword.isAbsent_part (name.free keyword hkeyword) rfl ?_
    refine hword.isAbsent_part (bases.free keyword hkeyword) rfl ?_
    exact hword.isAbsent_sign rfl (isAbsent_nil _ _)
  | function name parameters =>
    refine hword.isAbsent_part (hother (by decide) (by simpa [keywords] using h)) rfl ?_
    refine hword.isAbsent_part (name.free keyword hkeyword) rfl ?_
    refine hword.isAbsent_part (parameters.free keyword hkeyword) rfl ?_
    exact hword.isAbsent_sign rfl (isAbsent_nil _ _)
  | imports items =>
    refine hword.isAbsent_part (hother (by decide) (by simpa [keywords] using h)) rfl ?_
    exact hend items.toStretch
  | importsFrom origin items =>
    simp only [keywords, List.mem_cons, List.not_mem_nil, or_false, not_or] at h
    refine hword.isAbsent_part (hother (by decide) h.1) rfl ?_
    refine hword.isAbsent_part (origin.free keyword hkeyword) rfl ?_
    exact hword.isAbsent_part (hother (by decide) h.2) rfl (hend items.toStretch)
  | other filler => exact hend filler

/-! ## What the patterns take -/

variable {statement : PythonStatement} {name : List Char}

/-- The pattern of a class takes the statement of one, up to the colon. -/
theorem takes_class (h : statement.className? = some name) (rest : List Char) :
    pythonClass.pattern.Takes statement.text ('\n' :: rest) (named name) := by
  have hcolon := (takes_literal ":" ('\n' :: rest)).cons (takes_nil _)
  cases statement with
  | plainClass word =>
    obtain rfl : word.text = name := Option.some.inj h
    have hbases : (optional bracketed).Takes [] (':' :: '\n' :: rest) [] :=
      (refuses_bracketed (by decide)).takes_optional
    exact (takes_literal "class" _).cons
      (takes_gap_namedWord word.isWord (endsRun_cons.mpr rfl) (hbases.cons hcolon))
  | derivedClass word bases =>
    obtain rfl : word.text = name := Option.some.inj h
    have hbases := (takes_bracketed (bases.notMem rfl) (':' :: '\n' :: rest)).optional
    exact (takes_literal "class" _).cons (takes_gap_namedWord word.isWord (endsRun_cons.mpr rfl)
      (cons_of_takes_bracketed hbases hcolon))
  | _ => cases h

/-- The pattern of a function takes the statement of one, up to the colon. -/
theorem takes_function (h : statement.functionName? = some name) (rest : List Char) :
    pythonFunction.pattern.Takes statement.text ('\n' :: rest) (named name) := by
  cases statement with
  | function word parameters =>
    obtain rfl : word.text = name := Option.some.inj h
    have hcolon := (takes_literal ":" ('\n' :: rest)).cons (takes_nil _)
    have hparameters := takes_bracketed (parameters.notMem rfl) (':' :: '\n' :: rest)
    exact (takes_literal "def" _).cons (takes_gap_namedWord word.isWord (endsRun_cons.mpr rfl)
      ((takes_mayGap_nil (by decide) _).cons (cons_of_takes_bracketed hparameters hcolon)))
  | _ => cases h

/-- The texts that a match of the pattern of an import remembers. -/
def importWords : Option (List Char) × List Char → List (Nat × List Char)
  | (some origin, items) => [(2, items), (1, origin)]
  | (none, items) => [(2, items)]

/-- An import takes its items up to the end of the line. -/
theorem takes_items {keywords : List String} (items : FullStretch keywords (· != '\n'))
    (htight : IsTight items.text) (rest : List Char) :
    (sequence [literal "import", gap, group 2 (oneOrMore (· != '\n'))]).Takes
      ("import".toList ++ ' ' :: items.text) ('\n' :: rest) [(2, items.text)] := by
  have hgroup : (group 2 (oneOrMore (· != '\n'))).Takes items.text ('\n' :: rest)
      [(2, items.text)] :=
    (takes_oneOrMore items.ne_nil items.accepted (endsRun_cons.mpr rfl)).group 2
  have hgap : EndsRun isBlank (items.text ++ '\n' :: rest) := by
    obtain ⟨c, more, heq⟩ := List.exists_cons_of_ne_nil items.ne_nil
    rw [heq] at htight ⊢
    exact endsRun_cons.mpr (htight c rfl)
  exact (takes_literal "import" _).seq ((takes_gap hgap).seq hgroup)

/-- The module that names are imported from is taken as a whole. -/
theorem takes_origin {keywords : List String} (origin : FullStretch keywords (!isBlank ·))
    {parts : List Pattern} {more rest : List Char} {words : List (Nat × List Char)}
    (hmore : EndsRun isBlank (more ++ rest)) (h : (sequence parts).Takes more rest words) :
    (sequence (literal "from" :: gap :: group 1 (oneOrMore (!isBlank ·)) :: gap :: parts)).Takes
      ("from".toList ++ ' ' :: (origin.text ++ ' ' :: more)) rest
      (words ++ [(1, origin.text)]) := by
  have hgroup : (group 1 (oneOrMore (!isBlank ·))).Takes origin.text (' ' :: (more ++ rest))
      [(1, origin.text)] :=
    (takes_oneOrMore origin.ne_nil origin.accepted (endsRun_cons.mpr rfl)).group 1
  have hgap : EndsRun isBlank (origin.text ++ ' ' :: more ++ rest) := by
    obtain ⟨c, others, heq⟩ := List.exists_cons_of_ne_nil origin.ne_nil
    have hc := origin.accepted c (heq ▸ List.mem_cons_self)
    rw [heq]
    exact endsRun_cons.mpr (by simpa using hc)
  have hall := (takes_literal "from" _).cons
    ((takes_gap hgap).cons (hgroup.cons ((takes_gap hmore).cons h)))
  rw [List.append_nil, List.append_nil, List.append_nil] at hall
  exact hall

/-- The pattern of an import takes a statement without `from`. -/
theorem takes_pythonImport {keywords : List String} (items : FullStretch keywords (· != '\n'))
    (htight : IsTight items.text) (rest : List Char) :
    pythonImport.pattern.Takes ("import".toList ++ ' ' :: items.text) ('\n' :: rest)
      [(2, items.text)] := by
  have horigin :
      (literal "from").Refuses ("import".toList ++ ' ' :: items.text ++ '\n' :: rest) :=
    refuses_literal fun hbegin => absurd (List.cons_prefix_cons.mp hbegin).1 (by decide)
  exact (horigin.sequence _).takes_optional.cons (takes_items items htight rest)

/-- The pattern of an import takes a statement with `from`. -/
theorem takes_pythonImport_from {keywords : List String}
    (origin : FullStretch keywords (!isBlank ·)) (items : FullStretch keywords (· != '\n'))
    (htight : IsTight items.text) (rest : List Char) :
    pythonImport.pattern.Takes
      ("from".toList ++ ' ' :: (origin.text ++ ' ' :: ("import".toList ++ ' ' :: items.text)))
      ('\n' :: rest) [(2, items.text), (1, origin.text)] := by
  have hkeyword : EndsRun isBlank ([] ++ ("import".toList ++ ' ' :: items.text ++ '\n' :: rest)) :=
    endsRun_cons.mpr rfl
  have horigin := takes_origin origin hkeyword (takes_nil _)
  have hall := horigin.optional.cons (takes_items items htight rest)
  simp only [List.append_assoc, List.cons_append, List.nil_append] at hall
  exact hall

/-- The pattern of an import takes the statement of one. -/
theorem takes_import {entry : Option (List Char) × List Char} (h : statement.import? = some entry)
    (rest : List Char) :
    pythonImport.pattern.Takes statement.text ('\n' :: rest) (importWords entry) := by
  cases statement with
  | imports items tight =>
    obtain rfl : (none, items.text) = entry := Option.some.inj h
    exact takes_pythonImport items tight rest
  | importsFrom origin items tight =>
    obtain rfl : (some origin.text, items.text) = entry := Option.some.inj h
    exact takes_pythonImport_from origin items tight rest
  | _ => cases h

end PythonStatement

namespace PythonLine

/-- The line with its end. -/
def text (line : PythonLine) : List Char :=
  spaces line.indent ++ (line.statement.text ++ ['\n'])

/-- The source that consists of the lines. -/
def source (lines : List PythonLine) : String :=
  String.ofList (lines.flatMap text)

variable {pattern : Pattern} {keywords : List String} {Entry : Type}
  {entryOf : PythonStatement → Option Entry} {words : Entry → List (Nat × List Char)}

/-- **A scan finds the statements that the pattern takes** and passes over the others, if the
pattern takes all in which one of the keywords stands that it begins with. -/
theorem finds (hgroup : pattern.roundsHoldNoGroup = true) (hreads : pattern.readsAlways = true)
    (hbegins : pattern.BeginsWith keywords)
    (hkeywords : ∀ keyword ∈ keywords, keyword ∈ pythonKeywords)
    (hnone : ∀ statement, entryOf statement = none →
      ∀ keyword ∈ keywords, keyword ∉ statement.keywords)
    (htakes : ∀ {statement entry}, entryOf statement = some entry → ∀ rest,
      pattern.Takes statement.text ('\n' :: rest) (words entry)) (lines : List PythonLine) :
    pattern.Finds (lines.flatMap text)
      ((lines.filterMap fun line => entryOf line.statement).map words) := by
  refine finds_indented hgroup hreads hbegins
    (fun keyword hmem => PythonStatement.isKeyword_python keyword (hkeywords keyword hmem))
    (fun line hentry keyword hmem rest => PythonStatement.isAbsent (hkeywords keyword hmem)
      line.statement (hnone line.statement hentry keyword hmem) rest)
    (fun line entry hentry => ?_) lines
  -- A statement is taken as a whole.
  exact ⟨line.statement.text, [], (List.append_nil _).symm, fun keyword hmem rest =>
    isAbsent_nil _ _, htakes hentry⟩

end PythonLine

/-! ## All lines -/

theorem beginsWith_pythonImport : pythonImport.pattern.BeginsWith ["from", "import"] := by
  intro start stop h
  obtain ⟨mid, horigin | rfl, himport⟩ := reads_sequence_cons.mp h
  · obtain ⟨mid', hfrom, -⟩ := reads_sequence_cons.mp horigin
    exact ⟨"from", by decide, mid'.rest, hfrom.literal.symm⟩
  · obtain ⟨mid', hword, -⟩ := reads_sequence_cons.mp himport
    exact ⟨"import", by decide, mid'.rest, hword.literal.symm⟩

/-- The pattern of an import tells the imports that its scan finds. -/
theorem imports_of_finds {text : List Char} {entries : List (Option (List Char) × List Char)}
    (h : pythonImport.pattern.Finds text (entries.map PythonStatement.importWords)) :
    pythonImport.observations text = entries.map fun entry =>
      importLine (entry.1.map String.ofList, String.ofList entry.2) := by
  rw [observations_of_finds isSearchable_pythonImport.holds h, List.filterMap_map,
    ← List.filterMap_eq_map]
  refine congrArg (List.filterMap · _) (funext fun entry => ?_)
  obtain ⟨origin, items⟩ := entry
  cases origin <;> rfl

variable (lines : List PythonLine)

/-- Every class of a plain source is reported. -/
theorem pythonClass_plain :
    pythonClass.observations (lines.flatMap PythonLine.text) =
      (lines.filterMap (·.statement.className?)).map ("Defines class: " ++ String.ofList ·) := by
  have hfinds := PythonLine.finds isSearchable_pythonClass.holds isSearchable_pythonClass.reads
    (beginsWith_literal "class" _) (by decide)
    (fun statement hnone keyword hkeyword =>
      List.mem_singleton.mp hkeyword ▸ PythonStatement.class_notMem_keywords hnone)
    PythonStatement.takes_class lines
  exact labelled_of_finds isSearchable_pythonClass.holds rfl hfinds

/-- Every function of a plain source is reported, unless it is private. -/
theorem pythonFunction_plain :
    pythonFunction.observations (lines.flatMap PythonLine.text) =
      ((lines.filterMap (·.statement.functionName?)).filter (·.head? != some '_')).map
        ("Defines function: " ++ String.ofList ·) := by
  have hfinds := PythonLine.finds isSearchable_pythonFunction.holds
    isSearchable_pythonFunction.reads (beginsWith_literal "def" _) (by decide)
    (fun statement hnone keyword hkeyword =>
      List.mem_singleton.mp hkeyword ▸ PythonStatement.def_notMem_keywords hnone)
    PythonStatement.takes_function lines
  rw [observations_of_finds isSearchable_pythonFunction.holds hfinds, List.filterMap_map]
  generalize lines.filterMap (fun line => line.statement.functionName?) = names
  have hreport : (fun words => pythonFunction.report fun index =>
      (words.lookup index).map String.ofList) ∘ named = fun name =>
        (Option.guard (·.head? != some '_') name).map
          ("Defines function: " ++ String.ofList ·) := by
    funext name
    show (if (String.ofList name).toList.head? == some '_' then none
      else some ("Defines function: " ++ String.ofList name)) = _
    rw [String.toList_ofList]
    by_cases hprivate : name.head? = some '_' <;> simp [Option.guard, hprivate]
  rw [hreport, ← List.map_filterMap, List.filterMap_eq_filter]

/-- Every import of a plain source is reported. -/
theorem pythonImport_plain :
    pythonImport.observations (lines.flatMap PythonLine.text) =
      (lines.filterMap (·.statement.import?)).map fun entry =>
        importLine (entry.1.map String.ofList, String.ofList entry.2) := by
  have hfinds := PythonLine.finds isSearchable_pythonImport.holds
    isSearchable_pythonImport.reads beginsWith_pythonImport (by decide)
    (fun _ => PythonStatement.import_notMem_keywords) PythonStatement.takes_import lines
  exact imports_of_finds hfinds

/-- **A Python source of plain shape is reported completely and exactly.** -/
theorem python_observations_plain :
    Language.python.observations (PythonLine.source lines) =
      (lines.filterMap (·.statement.className?)).map ("Defines class: " ++ String.ofList ·) ++
        ((lines.filterMap (·.statement.functionName?)).filter (·.head? != some '_')).map
          ("Defines function: " ++ String.ofList ·) ++
        (lines.filterMap (·.statement.import?)).map fun entry =>
          importLine (entry.1.map String.ofList, String.ofList entry.2) := by
  have hsource : (PythonLine.source lines).toList = lines.flatMap PythonLine.text :=
    String.toList_ofList
  show Extractor.python.observations (PythonLine.source lines) = _
  unfold Extractor.observations Extractor.python
  rw [hsource]
  simp only [List.flatMap_cons, List.flatMap_nil, List.append_nil]
  rw [pythonClass_plain, pythonFunction_plain, pythonImport_plain, List.append_assoc]

end FileLore
