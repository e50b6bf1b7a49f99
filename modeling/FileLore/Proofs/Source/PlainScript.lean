import FileLore.Proofs.Source.Arrows
import FileLore.Proofs.Source.Exports

/-!
# JavaScript and TypeScript sources of plain shape

A script in which every line declares a function, a class or a constant, or binds
an arrow function, or is something else, each in its plainest shape and perhaps
exported, is reported completely and exactly (`script_observations_plain`): all
functions, then all arrow functions, then all classes, then all exported names,
each in the order of the lines and with repetitions.

What stands between an equals sign and an arrow may run over any number of lines,
but not over another equals sign outside round brackets. So a constant does not
reach an arrow on a later line (`ArrowFree`).
-/

namespace FileLore

open Pattern Extractor Text

/-- The words that declarations are exported by or begin with. -/
def scriptKeywords : List String := "export" :: declarationKeywords

/-- Whether the character is no line end, equals sign or round bracket. -/
def isPlain (c : Char) : Bool := c != '(' && c != ')' && c != '=' && c != '\n'

/-- The words that values are bound by. -/
inductive Binder where
  | const | let | var
  deriving DecidableEq, Repr

def Binder.word : Binder → String
  | const => "const"
  | .let => "let"
  | var => "var"

/-- Whether and how a declaration is exported. -/
inductive ExportMark where
  | unmarked
  /-- `export ` -/
  | plain
  /-- `export default ` -/
  | default
  deriving DecidableEq, Repr

/-- What stands in front of a declaration that is exported so. -/
def ExportMark.text : ExportMark → List Char
  | unmarked => []
  | plain => "export".toList ++ [' ']
  | default => "export".toList ++ ' ' :: ("default".toList ++ [' '])

/-- What is declared, without the name. -/
inductive Declared where
  /-- `function W(P) {` -/
  | function (parameters : Stretch scriptKeywords isPlain)
  /-- `class W {` -/
  | plainClass
  /-- `class W extends B {` -/
  | derivedClass (base : PlainWord scriptKeywords)
  /-- `const W = (Q) => {` -/
  | arrow (binder : Binder)
    (parameters : Stretch scriptKeywords fun c => c != '(' && c != ')' && c != '\n')
  /-- `const W = V;` -/
  | constant (binder : Binder) (value : FullStretch scriptKeywords isPlain)

namespace Declared

/-- The keyword in front of the name. -/
def keyword : Declared → String
  | function _ => "function"
  | plainClass | derivedClass _ => "class"
  | arrow binder _ | constant binder _ => binder.word

/-- What stands behind the name. -/
def tail : Declared → List Char
  | function parameters => '(' :: (parameters.text ++ [')', ' ', '{'])
  | plainClass => [' ', '{']
  | derivedClass base => ' ' :: ("extends".toList ++ ' ' :: (base.text ++ [' ', '{']))
  | arrow _ parameters =>
    [' ', '=', ' ', '('] ++ (parameters.text ++ [')', ' ', '=', '>', ' ', '{'])
  | constant _ value => [' ', '=', ' '] ++ (value.text ++ [';'])

end Declared

/-- A line of plain shape. -/
inductive ScriptLine where
  | declaration (mark : ExportMark) (name : PlainWord scriptKeywords) (declared : Declared)
  /-- Anything else on one line. -/
  | other (filler : Stretch scriptKeywords isPlain)

namespace ScriptLine

/-- A declaration up to the end of the line. -/
def core (name : PlainWord scriptKeywords) (declared : Declared) : List Char :=
  declared.keyword.toList ++ ' ' :: (name.text ++ (declared.tail ++ ['\n']))

/-- The line with its end. -/
def text : ScriptLine → List Char
  | declaration mark name declared => mark.text ++ core name declared
  | other filler => filler.text ++ ['\n']

/-- The source that consists of the lines. -/
def source (lines : List ScriptLine) : String :=
  String.ofList (lines.flatMap text)

/-- The function that the line declares by the keyword. -/
def functionName? : ScriptLine → Option (List Char)
  | declaration _ name (.function _) => some name.text
  | _ => none

/-- The name that the line binds to an arrow function. -/
def arrowName? : ScriptLine → Option (List Char)
  | declaration _ name (.arrow _ _) => some name.text
  | _ => none

/-- The class that the line declares. -/
def className? : ScriptLine → Option (List Char)
  | declaration _ name .plainClass | declaration _ name (.derivedClass _) => some name.text
  | _ => none

/-- The name that the line exports. -/
def exportName? : ScriptLine → Option (List Char)
  | declaration .plain name _ | declaration .default name _ => some name.text
  | _ => none

/-! ## Where keywords stand -/

theorem isKeyword_script : ∀ keyword ∈ scriptKeywords, IsKeyword keyword.toList := by
  decide

theorem keyword_notInfix : ∀ keyword ∈ scriptKeywords,
    ∀ other ∈ ["extends", "default"] ++ scriptKeywords,
      keyword ≠ other → ¬keyword.toList <:+: other.toList := by
  decide

theorem keyword_mem (declared : Declared) : declared.keyword ∈ declarationKeywords := by
  cases declared with
  | arrow binder | constant binder =>
    cases binder <;> simp [Declared.keyword, Binder.word, declarationKeywords]
  | _ => simp [Declared.keyword, declarationKeywords]

theorem binder_word_mem (binder : Binder) : binder.word ∈ binders := by
  cases binder <;> decide

theorem binder_word_notMem (binder : Binder) :
    binder.word ∉ ["function"] ∧ binder.word ∉ ["class"] := by
  cases binder <;> decide

theorem binder_word_eq_cons (binder : Binder) : ∃ c more, binder.word.toList = c :: more ∧
    ∀ word ∈ binders, ¬word.toList <:+: more := by
  cases binder with
  | const => exact ⟨'c', "onst".toList, rfl, by decide⟩
  | «let» => exact ⟨'l', "et".toList, rfl, by decide⟩
  | var => exact ⟨'v', "ar".toList, rfl, by decide⟩

/-- Behind a name stands a sign. -/
theorem tail_eq_cons (declared : Declared) : ∃ sign more, declared.tail = sign :: more ∧
    sign.isLower = false ∧ isWordChar sign = false := by
  cases declared with
  | function => exact ⟨'(', _, rfl, rfl, rfl⟩
  | _ => exact ⟨' ', _, rfl, rfl, rfl⟩

variable {keyword : String}

theorem isAbsent_tail (hkeyword : keyword ∈ scriptKeywords) (declared : Declared)
    (rest : List Char) : IsAbsent keyword.toList (declared.tail ++ ['\n']) rest := by
  have hword := isKeyword_script keyword hkeyword
  cases declared with
  | function parameters =>
    rw [Declared.tail, List.cons_append, List.append_assoc]
    refine hword.isAbsent_sign rfl ?_
    exact hword.isAbsent_part (parameters.free keyword hkeyword) rfl (hword.isAbsent_signs rfl rest)
  | plainClass => exact hword.isAbsent_signs rfl rest
  | derivedClass base =>
    have hextends := keyword_notInfix keyword hkeyword "extends" (by decide)
      (by rintro rfl; revert hkeyword; decide)
    simp only [Declared.tail, List.cons_append, List.append_assoc]
    refine hword.isAbsent_sign rfl (hword.isAbsent_part hextends rfl ?_)
    exact hword.isAbsent_part (base.free keyword hkeyword) rfl (hword.isAbsent_signs rfl rest)
  | arrow binder parameters =>
    rw [Declared.tail, List.append_assoc, List.append_assoc]
    refine isAbsent_append.mpr ⟨hword.isAbsent_signs rfl _, ?_⟩
    exact hword.isAbsent_part (parameters.free keyword hkeyword) rfl (hword.isAbsent_signs rfl rest)
  | constant binder value =>
    rw [Declared.tail, List.append_assoc, List.append_assoc]
    refine isAbsent_append.mpr ⟨hword.isAbsent_signs rfl _, ?_⟩
    exact hword.isAbsent_part (value.free keyword hkeyword) rfl (hword.isAbsent_signs rfl rest)

theorem isAbsent_name (hkeyword : keyword ∈ scriptKeywords) (name : PlainWord scriptKeywords)
    (declared : Declared) (rest : List Char) :
    IsAbsent keyword.toList (name.text ++ (declared.tail ++ ['\n'])) rest := by
  refine isAbsent_append.mpr ⟨?_, isAbsent_tail hkeyword declared rest⟩
  obtain ⟨sign, more, htail, hsign, -⟩ := tail_eq_cons declared
  rw [htail]
  exact isAbsent_of_notInfix (name.free keyword hkeyword)
    ((isKeyword_script keyword hkeyword).notMem hsign)

/-- A keyword stands in a declaration only in front of the name. -/
theorem isAbsent_core (hkeyword : keyword ∈ scriptKeywords) (name : PlainWord scriptKeywords)
    {declared : Declared} (hne : keyword ≠ declared.keyword) (rest : List Char) :
    IsAbsent keyword.toList (core name declared) rest := by
  have hmem := List.mem_append_right ["extends", "default", "export"] (keyword_mem declared)
  exact (isKeyword_script keyword hkeyword).isAbsent_part
    (keyword_notInfix keyword hkeyword declared.keyword hmem hne) rfl
    (isAbsent_name hkeyword name declared rest)

theorem isAbsent_mark (hkeyword : keyword ∈ scriptKeywords) (hne : keyword ≠ "export")
    (mark : ExportMark) (rest : List Char) : IsAbsent keyword.toList mark.text rest := by
  have hword := isKeyword_script keyword hkeyword
  have hexport := keyword_notInfix keyword hkeyword "export" (by decide) hne
  cases mark with
  | unmarked => exact isAbsent_nil _ _
  | plain => exact hword.isAbsent_part hexport rfl (isAbsent_nil _ _)
  | default =>
    have hdefault := keyword_notInfix keyword hkeyword "default" (by decide)
      (by rintro rfl; revert hkeyword; decide)
    exact hword.isAbsent_part hexport rfl (hword.isAbsent_part hdefault rfl (isAbsent_nil _ _))

/-! ## Functions and classes -/

variable {rest : List Char}

/-- The pattern of a function takes a declaration of one up to the bracket behind the name. -/
theorem takes_function (name : PlainWord scriptKeywords) (rest : List Char) :
    scriptFunction.pattern.Takes ("function".toList ++ ' ' :: (name.text ++ ['('])) rest
      (named name.text) :=
  (takes_literal "function" _).cons
    (takes_gap_namedWord name.isWord (endsRun_cons.mpr rfl) (takes_opening rest))

/-- The pattern of what names the base of a class. -/
def baseClause : Pattern :=
  sequence [gap, literal "extends", gap, oneOrMore isWordChar]

/-- Behind the name of a class without a base, none is read. -/
theorem refuses_baseClause (rest : List Char) : baseClause.Refuses (' ' :: '{' :: rest) := by
  rw [refuses_iff rfl]
  intro start stop hstart hread
  obtain ⟨mid, hgap, hread⟩ := reads_sequence_cons.mp hread
  obtain ⟨last, hextends, -⟩ := reads_sequence_cons.mp hread
  obtain ⟨blanks, -, hblanks, hsplit⟩ := hgap.oneOrMore
  have hword := hextends.literal
  have hmid := rest_of_blanks (hsplit.symm.trans hstart) hblanks (hword ▸ endsRun_cons.mpr rfl)
    (endsRun_cons.mpr rfl)
  rw [hword] at hmid
  cases hmid

theorem takes_baseClause (base : PlainWord scriptKeywords) (hrest : EndsRun isWordChar rest) :
    baseClause.Takes (' ' :: ("extends".toList ++ ' ' :: base.text)) rest [] := by
  have hword := (takes_gap (base.isWord.endsRun_isBlank rest)).seq
    (takes_oneOrMore base.ne_nil base.accepted hrest)
  exact (takes_gap (endsRun_cons.mpr rfl)).seq ((takes_literal "extends" _).seq hword)

/-- The pattern of a class takes a declaration of one up to the name or, if there is one, to the
base. -/
theorem takes_class (name : PlainWord scriptKeywords) {base : List Char}
    (h : (optional baseClause).Takes base rest []) (hrest : EndsRun isWordChar (base ++ rest)) :
    scriptClass.pattern.Takes ("class".toList ++ ' ' :: (name.text ++ base)) rest
      (named name.text) := by
  have hbase : (sequence [optional baseClause]).Takes base rest [] := h
  exact (takes_literal "class" _).cons (takes_gap_namedWord name.isWord hrest hbase)

/-! ## Exports -/

/-- A declaration that is marked begins an export. -/
theorem exportHead_mark {mark : ExportMark} (hmark : mark ≠ .unmarked)
    (hkeyword : keyword ∈ declarationKeywords) : ExportHead (mark.text ++ keyword.toList) := by
  cases mark with
  | unmarked => exact absurd rfl hmark
  | plain => exact ⟨[' '], [], keyword, hkeyword, isGap_space, .absent, List.append_assoc ..⟩
  | default =>
    refine ⟨[' '], "default".toList ++ [' '], keyword, hkeyword, isGap_space, .present isGap_space, ?_⟩
    exact List.append_assoc ..

/-! ## Arrows ahead -/

theorem ne_of_isPlain {c : Char} (h : isPlain c = true) : c ≠ ')' ∧ c ≠ '=' ∧ c ≠ '(' := by
  simp only [isPlain, Bool.and_eq_true, bne_iff_ne] at h
  exact ⟨h.1.1.2, h.1.2, h.1.1.1⟩

theorem ne_of_isWordChar {c : Char} (h : isWordChar c = true) : c ≠ '=' ∧ c ≠ '(' := by
  constructor
  · rintro rfl
    exact absurd h (by decide)
  · rintro rfl
    exact absurd h (by decide)

theorem isPlain_mark (mark : ExportMark) : ∀ c ∈ mark.text, isPlain c = true := by
  have hall : mark.text.all isPlain = true := by cases mark <;> decide
  exact List.all_eq_true.mp hall

/-- What stands behind a name leads to no arrow, if the lines below do not. -/
theorem arrowFree_tail (h : ArrowFree rest) (declared : Declared) :
    ArrowFree (declared.tail ++ '\n' :: rest) := by
  have hend : ArrowFree ([' ', '{', '\n'] ++ rest) := h.append (by simp)
  cases declared with
  | function parameters =>
    have hinner : ∀ c ∈ parameters.text, c ≠ ')' ∧ c ≠ '=' ∧ c ≠ '(' := fun c hc =>
      ne_of_isPlain (parameters.accepted c hc)
    have hclose : ArrowFree (')' :: ([' ', '{', '\n'] ++ rest)) :=
      .pass (by decide) (by decide) hend
    rw [Declared.tail, List.cons_append, List.append_assoc]
    exact .bracket (fun c hc => ⟨(hinner c hc).1, (hinner c hc).2.1⟩)
      (hclose.append fun c hc => (hinner c hc).2)
  | plainClass => exact hend
  | derivedClass base =>
    have hbase := hend.append fun c hc => ne_of_isWordChar (base.accepted c hc)
    have hword : IsWord "extends".toList := by decide
    have hextends := hbase.space.append fun c hc => ne_of_isWordChar (hword.chars c hc)
    rw [Declared.tail, List.cons_append, List.append_assoc, List.cons_append, List.append_assoc]
    exact hextends.space
  | arrow => exact (ArrowFree.bound _).space
  | constant => exact (ArrowFree.bound _).space

/-- **No number of steps from the beginning of a line leads to an arrow.** -/
theorem arrowFree_lines (lines : List ScriptLine) : ArrowFree (lines.flatMap text) := by
  induction lines with
  | nil => exact .done
  | cons line later ih =>
    rw [List.flatMap_cons]
    cases line with
    | declaration mark name declared =>
      have hname := (arrowFree_tail ih declared).append fun c hc =>
        ne_of_isWordChar (name.accepted c hc)
      have hkeyword := hname.space.append fun c hc =>
        ne_of_isWordChar ((isWord_keyword declared.keyword (keyword_mem declared)).chars c hc)
      have hmark := hkeyword.append fun c hc => (ne_of_isPlain (isPlain_mark mark c hc)).2
      simp only [text, core, List.append_assoc, List.cons_append, List.nil_append]
      exact hmark
    | other filler =>
      rw [text, List.append_assoc]
      exact ArrowFree.append (.pass (by decide) (by decide) ih) fun c hc =>
        (ne_of_isPlain (filler.accepted c hc)).2

/-! ## All lines -/

variable {pattern : Pattern} {words : List String} {entryOf : ScriptLine → Option (List Char)}

/-- Declarations of interest are found behind their marks, if they are found where the keyword
stands. -/
theorem finds_declarations (hgroup : pattern.roundsHoldNoGroup = true)
    (hbegins : pattern.BeginsWith words) (hwords : ∀ word ∈ words, word ∈ declarationKeywords)
    (hother : ∀ filler, entryOf (other filler) = none)
    (hcore : ∀ (mark : ExportMark) (name : PlainWord scriptKeywords) (declared : Declared)
      (later : List ScriptLine) (all : List (List (Nat × List Char))),
        pattern.Finds (later.flatMap text) all →
          pattern.Finds (core name declared ++ later.flatMap text)
            (((entryOf (declaration mark name declared)).map named).toList ++ all))
    (lines : List ScriptLine) :
    pattern.Finds (lines.flatMap text) ((lines.filterMap entryOf).map named) := by
  refine finds_lines text entryOf named (fun line later all hlater => ?_) lines
  have hkeyword : ∀ word ∈ words, word ∈ scriptKeywords ∧ word ≠ "export" := by
    intro word hword
    refine ⟨List.mem_cons_of_mem _ (hwords word hword), ?_⟩
    rintro rfl
    exact absurd (hwords "export" hword) (by decide)
  cases line with
  | declaration mark name declared =>
    rw [text, List.append_assoc]
    refine .append hgroup hbegins (fun word hword => ?_) (hcore mark name declared later all hlater)
    exact isAbsent_mark (hkeyword word hword).1 (hkeyword word hword).2 mark _
  | other filler =>
    rw [hother]
    refine .append hgroup hbegins (fun word hword => ?_) hlater
    exact (isKeyword_script word (hkeyword word hword).1).isAbsent_part
      (filler.free word (hkeyword word hword).1) rfl (isAbsent_nil _ _)

/-- A declaration that begins with another word is passed over. -/
theorem finds_of_ne (hgroup : pattern.roundsHoldNoGroup = true)
    (hbegins : pattern.BeginsWith words) (hwords : ∀ word ∈ words, word ∈ scriptKeywords)
    (name : PlainWord scriptKeywords) {declared : Declared} (hne : declared.keyword ∉ words)
    {all : List (List (Nat × List Char))} (h : pattern.Finds rest all) :
    pattern.Finds (core name declared ++ rest) all := by
  refine .append hgroup hbegins (fun word hword => ?_) h
  refine isAbsent_core (hwords word hword) name ?_ rest
  rintro rfl
  exact hne hword

theorem finds_functions (lines : List ScriptLine) :
    scriptFunction.pattern.Finds (lines.flatMap text)
      ((lines.filterMap functionName?).map named) := by
  have hgroup := isSearchable_scriptFunction.holds
  have hbegins : scriptFunction.pattern.BeginsWith ["function"] := beginsWith_literal "function" _
  refine finds_declarations hgroup hbegins (by decide) (fun _ => rfl)
    (fun mark name declared later all hlater => ?_) lines
  cases declared with
  | function parameters =>
    have hafter : IsAbsent "function".toList (parameters.text ++ [')', ' ', '{'] ++ ['\n'])
        (later.flatMap text) :=
      (isAbsent_cons.mp (isAbsent_tail (by decide) (.function parameters) _)).2
    have hall := Finds.found_append hgroup isSearchable_scriptFunction.reads hbegins
      (takes_function name _) (List.forall_mem_singleton.mpr hafter) hlater
    simp only [List.append_assoc, List.cons_append, List.nil_append] at hall
    simp only [core, Declared.keyword, Declared.tail, List.append_assoc, List.cons_append,
      List.nil_append]
    exact hall
  | plainClass | derivedClass =>
    exact finds_of_ne hgroup hbegins (by decide) name (by simp [Declared.keyword]) hlater
  | arrow binder | constant binder =>
    refine finds_of_ne hgroup hbegins (by decide) name ?_ hlater
    exact (binder_word_notMem binder).1

theorem finds_classes (lines : List ScriptLine) :
    scriptClass.pattern.Finds (lines.flatMap text) ((lines.filterMap className?).map named) := by
  have hgroup := isSearchable_scriptClass.holds
  have hbegins : scriptClass.pattern.BeginsWith ["class"] := beginsWith_literal "class" _
  refine finds_declarations hgroup hbegins (by decide) (fun _ => rfl)
    (fun mark name declared later all hlater => ?_) lines
  have hend : IsAbsent "class".toList [' ', '{', '\n'] (later.flatMap text) :=
    isAbsent_tail (by decide) .plainClass _
  have hfound {base : List Char}
      (hbase : (optional baseClause).Takes base ([' ', '{', '\n'] ++ later.flatMap text) [])
      (hrest : EndsRun isWordChar (base ++ ([' ', '{', '\n'] ++ later.flatMap text))) :=
    Finds.found_append hgroup isSearchable_scriptClass.reads hbegins
      (takes_class name hbase hrest) (List.forall_mem_singleton.mpr hend) hlater
  cases declared with
  | plainClass =>
    have hall := hfound (refuses_baseClause _).takes_optional (endsRun_cons.mpr rfl)
    rw [List.append_nil] at hall
    simp only [core, Declared.keyword, Declared.tail, List.append_assoc, List.cons_append] at hall ⊢
    exact hall
  | derivedClass base =>
    have hall := hfound (takes_baseClause base (endsRun_cons.mpr rfl)).optional
      (endsRun_cons.mpr rfl)
    simp only [core, Declared.keyword, Declared.tail, List.append_assoc, List.cons_append] at hall ⊢
    exact hall
  | function parameters =>
    exact finds_of_ne hgroup hbegins (by decide) name (by simp [Declared.keyword]) hlater
  | arrow binder | constant binder =>
    refine finds_of_ne hgroup hbegins (by decide) name ?_ hlater
    exact (binder_word_notMem binder).2

theorem finds_arrows (lines : List ScriptLine) :
    scriptArrow.pattern.Finds (lines.flatMap text) ((lines.filterMap arrowName?).map named) := by
  have hgroup := isSearchable_scriptArrow.holds
  have hbegins : scriptArrow.pattern.BeginsWith binders := beginsWith_choice binders
    [gap, namedWord, mayGap, literal "=", mayGap, repeated arrowStep, literal "=>"]
  have hmem : ∀ word ∈ binders, word ∈ scriptKeywords := by decide
  refine finds_declarations hgroup hbegins (by decide) (fun _ => rfl)
    (fun mark name declared later all hlater => ?_) lines
  cases declared with
  | function | plainClass | derivedClass =>
    exact finds_of_ne hgroup hbegins hmem name (by simp [Declared.keyword, binders]) hlater
  | arrow binder parameters =>
    have hend : ∀ word ∈ binders,
        IsAbsent word.toList [' ', '{', '\n'] (later.flatMap text) :=
      fun word hword => isAbsent_tail (hmem word hword) .plainClass _
    have htakes := takes_arrow (binder_word_mem binder) name.isWord
      (parameters.notMem (by decide)) ([' ', '{', '\n'] ++ later.flatMap text)
    have hall := Finds.found_append hgroup isSearchable_scriptArrow.reads hbegins htakes hend hlater
    simp only [core, Declared.keyword, Declared.tail, List.append_assoc, List.cons_append,
      List.nil_append] at hall ⊢
    exact hall
  | constant binder value =>
    -- No arrow is reached from the value, neither on this line nor on a later one.
    have hend : ArrowFree ([';', '\n'] ++ later.flatMap text) :=
      (arrowFree_lines later).append (by simp)
    have hvalue := hend.append fun c hc => (ne_of_isPlain (value.accepted c hc)).2
    have hrefuses := refuses_arrow (binder_word_mem binder) name.isWord hvalue.space
    -- So the line is refused at its keyword, and behind the first letter none begins any more.
    obtain ⟨c, more, hbinder, hmore⟩ := binder_word_eq_cons binder
    have hrest : ∀ word ∈ binders, IsAbsent word.toList
        (more ++ ' ' :: (name.text ++ ((Declared.constant binder value).tail ++ ['\n'])))
        (later.flatMap text) := fun word hword =>
      (isKeyword_script word (hmem word hword)).isAbsent_part (hmore word hword) rfl
        (isAbsent_name (hmem word hword) name _ _)
    have hall := Finds.append hgroup hbegins hrest hlater
    simp only [core, Declared.keyword, Declared.tail, hbinder, List.append_assoc, List.cons_append,
      List.nil_append] at hall hrefuses ⊢
    exact .pass hrefuses hall

theorem finds_exports (lines : List ScriptLine) :
    scriptExport.pattern.Finds (lines.flatMap text) ((lines.filterMap exportName?).map named) := by
  have hgroup := isSearchable_scriptExport.holds
  have hbegins : scriptExport.pattern.BeginsWith ["export"] := beginsWith_literal "export" _
  refine finds_lines text exportName? named (fun line later all hlater => ?_) lines
  cases line with
  | declaration mark name declared =>
    have hmarked (hmark : mark ≠ .unmarked) :
        scriptExport.pattern.Finds (text (declaration mark name declared) ++ later.flatMap text)
          (named name.text :: all) := by
      obtain ⟨sign, more, htail, -, hsign⟩ := tail_eq_cons declared
      have hrest : EndsRun isWordChar (declared.tail ++ ['\n'] ++ later.flatMap text) := by
        rw [htail]
        exact endsRun_cons.mpr hsign
      have htakes := (exportHead_mark hmark (keyword_mem declared)).takes
        isBlank_space name.isWord hrest
      have hall := Finds.found_append hgroup isSearchable_scriptExport.reads hbegins htakes
        (List.forall_mem_singleton.mpr (isAbsent_tail (by decide) declared _)) hlater
      simp only [text, core, List.append_assoc, List.cons_append, List.nil_append] at hall ⊢
      exact hall
    cases mark with
    | unmarked =>
      refine finds_of_ne hgroup hbegins (by decide) name ?_ hlater
      intro hmem
      have hkeyword := keyword_mem declared
      rw [List.mem_singleton.mp hmem] at hkeyword
      exact absurd hkeyword (by decide)
    | plain => exact hmarked (by decide)
    | default => exact hmarked (by decide)
  | other filler =>
    refine .append hgroup hbegins (List.forall_mem_singleton.mpr ?_) hlater
    exact (isKeyword_script "export" (by decide)).isAbsent_part (filler.free "export" (by decide))
      rfl (isAbsent_nil _ _)

end ScriptLine

/-- **A JavaScript or TypeScript source of plain shape is reported completely and exactly.** -/
theorem script_observations_plain (lines : List ScriptLine) :
    Language.javaScript.observations (ScriptLine.source lines) =
        Language.typeScript.observations (ScriptLine.source lines) ∧
      Language.typeScript.observations (ScriptLine.source lines) =
        (lines.filterMap (·.functionName?)).map ("Defines function: " ++ String.ofList ·) ++
          (lines.filterMap (·.arrowName?)).map ("Defines arrow function: " ++ String.ofList ·) ++
          (lines.filterMap (·.className?)).map ("Defines class: " ++ String.ofList ·) ++
          (lines.filterMap (·.exportName?)).map ("Exports: " ++ String.ofList ·) := by
  refine ⟨rfl, ?_⟩
  have hsource : (ScriptLine.source lines).toList = lines.flatMap ScriptLine.text :=
    String.toList_ofList
  show Extractor.script.observations (ScriptLine.source lines) = _
  unfold Extractor.observations Extractor.script
  rw [hsource]
  simp only [List.flatMap_cons, List.flatMap_nil, List.append_nil]
  rw [labelled_of_finds isSearchable_scriptFunction.holds rfl (ScriptLine.finds_functions lines),
    labelled_of_finds isSearchable_scriptArrow.holds rfl (ScriptLine.finds_arrows lines),
    labelled_of_finds isSearchable_scriptClass.holds rfl (ScriptLine.finds_classes lines),
    labelled_of_finds isSearchable_scriptExport.holds rfl (ScriptLine.finds_exports lines),
    List.append_assoc, List.append_assoc]
  rfl

end FileLore
