import FileLore.Proofs.Source.PlainLines

/-!
# Go sources of plain shape

A Go source in which every line begins a function, a method, a structure or an
interface, or is something else, each in its plainest shape, is reported
completely and exactly (`go_observations_plain`): all functions and methods, then
all structures, then all interfaces, each in the order of the lines and with
repetitions. Structures and interfaces are told apart behind the name only, where
the one pattern takes what the other refuses.
-/

namespace FileLore

open Pattern Extractor Text

/-- The words that declarations of interest begin with. -/
def goKeywords : List String := ["func", "type"]

/-- The kinds of types that are reported. -/
inductive GoKind where
  | struct | interface
  deriving DecidableEq, Repr

/-- The word that a type of the kind is declared by. -/
def GoKind.word : GoKind → String
  | struct => "struct"
  | interface => "interface"

/-- The rule for types of the kind. -/
def GoKind.rule : GoKind → ElementRule
  | struct => goStruct
  | interface => goInterface

/-- What stands between brackets on a line. -/
abbrev GoInner : Type := Stretch goKeywords fun c => c != ')' && c != '\n'

/-- A line of plain shape. -/
inductive GoLine where
  /-- `func W(P) {` or, with a receiver, `func (Q) W(P) {` -/
  | function (receiver? : Option GoInner) (name : PlainWord goKeywords) (parameters : GoInner)
  /-- `type W struct {` or `type W interface {` -/
  | declared (kind : GoKind) (name : PlainWord goKeywords)
  /-- Anything else on one line. -/
  | other (filler : Stretch goKeywords (· != '\n'))

namespace GoLine

/-- The receiver of a method in brackets. -/
def receiverText : Option GoInner → List Char
  | some receiver => '(' :: (receiver.text ++ ')' :: [' '])
  | none => []

theorem receiverText_append (receiver : GoInner) (more : List Char) :
    receiverText (some receiver) ++ more = '(' :: (receiver.text ++ ')' :: ' ' :: more) := by
  rw [receiverText, List.cons_append, List.append_assoc]
  rfl

/-- The line with its end. -/
def text : GoLine → List Char
  | function receiver? name parameters =>
    "func".toList ++ ' ' :: (receiverText receiver? ++
      (name.text ++ '(' :: (parameters.text ++ [')', ' ', '{', '\n'])))
  | declared kind name =>
    "type".toList ++ ' ' :: (name.text ++ ' ' :: (kind.word.toList ++ [' ', '{', '\n']))
  | other filler => filler.text ++ ['\n']

/-- The source that consists of the lines. -/
def source (lines : List GoLine) : String :=
  String.ofList (lines.flatMap text)

/-- The function or method that the line begins. -/
def functionName? : GoLine → Option (List Char)
  | function _ name _ => some name.text
  | _ => none

/-- The type of the kind that the line begins. -/
def typeName? (kind : GoKind) : GoLine → Option (List Char)
  | declared declaredKind name => if declaredKind = kind then some name.text else none
  | _ => none

/-- The keywords on the line. -/
def keywords : GoLine → List String
  | function _ _ _ => ["func"]
  | declared _ _ => ["type"]
  | other _ => []

theorem isKeyword_go : ∀ keyword ∈ goKeywords, IsKeyword keyword.toList := by
  decide

theorem keyword_notInfix : ∀ keyword ∈ goKeywords, ∀ other ∈ goKeywords,
    keyword ≠ other → ¬keyword.toList <:+: other.toList := by
  decide

theorem kind_notInfix : ∀ keyword ∈ goKeywords, ∀ kind : GoKind,
    ¬keyword.toList <:+: kind.word.toList := by
  have hall : ∀ keyword ∈ goKeywords, ∀ kind ∈ [GoKind.struct, GoKind.interface],
      ¬keyword.toList <:+: kind.word.toList := by decide
  intro keyword hkeyword kind
  exact hall keyword hkeyword kind (by cases kind <;> decide)

/-- A keyword that a line does not begin with occurs nowhere on it. -/
theorem isAbsent {keyword : String} (hkeyword : keyword ∈ goKeywords) (line : GoLine)
    (h : keyword ∉ line.keywords) (rest : List Char) : IsAbsent keyword.toList line.text rest := by
  have hword := isKeyword_go keyword hkeyword
  have hother {other : String} (hmem : other ∈ goKeywords) (hne : keyword ≠ other) :=
    keyword_notInfix keyword hkeyword other hmem hne
  have hend : IsAbsent keyword.toList ['{', '\n'] rest := hword.isAbsent_signs rfl rest
  cases line with
  | function receiver? name parameters =>
    have hcall : IsAbsent keyword.toList
        (name.text ++ '(' :: (parameters.text ++ [')', ' ', '{', '\n'])) rest := by
      refine hword.isAbsent_part (name.free keyword hkeyword) rfl ?_
      exact hword.isAbsent_part (parameters.free keyword hkeyword) rfl
        (hword.isAbsent_sign rfl hend)
    refine hword.isAbsent_part (hother (by decide) (by simpa [keywords] using h)) rfl ?_
    cases receiver? with
    | none => exact hcall
    | some receiver =>
      rw [receiverText_append]
      refine hword.isAbsent_sign rfl ?_
      exact hword.isAbsent_part (receiver.free keyword hkeyword) rfl
        (hword.isAbsent_sign rfl hcall)
  | declared kind name =>
    refine hword.isAbsent_part (hother (by decide) (by simpa [keywords] using h)) rfl ?_
    refine hword.isAbsent_part (name.free keyword hkeyword) rfl ?_
    exact hword.isAbsent_part (kind_notInfix keyword hkeyword kind) rfl hend
  | other filler =>
    exact hword.isAbsent_part (filler.free keyword hkeyword) rfl (isAbsent_nil _ _)

/-! ## Functions -/

/-- A receiver is taken if there is one. -/
theorem takes_receiver (receiver? : Option GoInner) (name : PlainWord goKeywords)
    (rest : List Char) :
    (optional (sequence [bracketed, gap])).Takes (receiverText receiver?) (name.text ++ rest)
      [] := by
  cases receiver? with
  | none =>
    obtain ⟨c, more, heq⟩ := List.exists_cons_of_ne_nil name.ne_nil
    have hc := name.accepted c (heq ▸ List.mem_cons_self)
    rw [heq]
    refine (Refuses.sequence (refuses_bracketed ?_) _).takes_optional
    rintro rfl
    exact absurd hc (by decide)
  | some receiver =>
    have hgap : (sequence [gap]).Takes [' '] (name.text ++ rest) [] :=
      takes_gap (name.isWord.endsRun_isBlank rest)
    exact (cons_of_takes_bracketed (takes_bracketed (receiver.notMem rfl) _) hgap).optional

theorem endsRun_receiver (receiver? : Option GoInner) (name : PlainWord goKeywords)
    (rest : List Char) : EndsRun isBlank (receiverText receiver? ++ (name.text ++ rest)) := by
  cases receiver? with
  | none => exact name.isWord.endsRun_isBlank rest
  | some receiver => exact endsRun_cons.mpr rfl

/-- The pattern of a function takes a line that begins one up to the bracket behind the name. -/
theorem takes_function (receiver? : Option GoInner) (name : PlainWord goKeywords)
    (rest : List Char) :
    goFunction.pattern.Takes
      ("func".toList ++ ' ' :: (receiverText receiver? ++ (name.text ++ ['(']))) rest
      (named name.text) := by
  have hname := (takes_namedWord name.isWord (endsRun_cons.mpr rfl)).cons (takes_opening rest)
  have hafter : name.text ++ ['('] ++ rest = name.text ++ '(' :: rest := List.append_assoc ..
  have hreceiver := takes_receiver receiver? name ('(' :: rest)
  have hgap := takes_gap (endsRun_receiver receiver? name ('(' :: rest))
  rw [← hafter] at hreceiver hgap
  rw [← List.append_assoc] at hgap
  exact (takes_literal "func" _).cons (hgap.cons (hreceiver.cons hname))

/-! ## Types -/

variable {kind : GoKind}

theorem isSearchable_rule (kind : GoKind) : IsSearchable kind.rule 1 := by
  cases kind with
  | struct => exact isSearchable_goStruct
  | interface => exact isSearchable_goInterface

theorem rule_pattern (kind : GoKind) :
    kind.rule.pattern = sequence [literal "type", gap, namedWord, gap, literal kind.word] := by
  cases kind <;> rfl

theorem endsRun_word (kind : GoKind) (rest : List Char) :
    EndsRun isBlank (kind.word.toList ++ rest) := by
  cases kind <;> exact endsRun_cons.mpr rfl

/-- The pattern of types of a kind takes a line that begins one up to the word for the kind. -/
theorem takes_type (kind : GoKind) (name : PlainWord goKeywords) (rest : List Char) :
    kind.rule.pattern.Takes ("type".toList ++ ' ' :: (name.text ++ ' ' :: kind.word.toList)) rest
      (named name.text) := by
  have hkind : (sequence [gap, literal kind.word]).Takes (' ' :: kind.word.toList) rest [] :=
    (takes_gap (endsRun_word kind rest)).seq (takes_literal kind.word rest)
  rw [rule_pattern]
  exact (takes_literal "type" _).cons
    (takes_gap_namedWord name.isWord (endsRun_cons.mpr rfl) hkind)

/-- It refuses a line that begins a type of another kind. -/
theorem refuses_type {other : GoKind} (h : other ≠ kind) (name : PlainWord goKeywords)
    (rest : List Char) :
    kind.rule.pattern.Refuses
      ("type".toList ++ ' ' :: (name.text ++ ' ' :: (other.word.toList ++ rest))) := by
  rw [refuses_iff (isSearchable_rule kind).holds, rule_pattern]
  intro start stop hstart hread
  obtain ⟨afterType, htype, hread⟩ := reads_sequence_cons.mp hread
  have hname := List.append_cancel_left (hstart.symm.trans htype.literal)
  -- The word for the kind stands behind the name, so the name is read as a whole.
  have hfollows : (sequence [gap, literal kind.word]).FollowsRun isWordChar :=
    (followsRun_oneOrMore fun _ => isWordChar_of_isBlank).cons _
  obtain ⟨afterName, hrest, hread⟩ := reads_gap_namedWord hread hfollows name.isWord
    (endsRun_cons.mpr rfl) hname.symm
  obtain ⟨beforeWord, hgap, hword⟩ := reads_sequence_cons.mp hread
  obtain ⟨blanks, -, hblanks, hsplit⟩ := hgap.oneOrMore
  have hread := hword.literal
  have hsame := rest_of_blanks (hsplit.symm.trans hrest) hblanks (hread ▸ endsRun_word kind _)
    (endsRun_word other _)
  rw [hread] at hsame
  cases kind with
  | struct =>
    cases other with
    | struct => exact h rfl
    | interface => cases hsame
  | interface =>
    cases other with
    | struct => cases hsame
    | interface => exact h rfl

/-! ## All lines -/

variable {pattern : Pattern} {keyword : String} {rest : List Char}
  {all : List (List (Nat × List Char))}

/-- A line on which its keyword does not stand is passed over. -/
theorem finds_of_notMem (hgroup : pattern.roundsHoldNoGroup = true)
    (hbegins : pattern.BeginsWith [keyword]) (hkeyword : keyword ∈ goKeywords) {line : GoLine}
    (h : keyword ∉ line.keywords) (hrest : pattern.Finds rest all) :
    pattern.Finds (line.text ++ rest) all :=
  .append hgroup hbegins (List.forall_mem_singleton.mpr (isAbsent hkeyword line h rest)) hrest

theorem finds_functions (lines : List GoLine) :
    goFunction.pattern.Finds (lines.flatMap text) ((lines.filterMap functionName?).map named) := by
  have hgroup := isSearchable_goFunction.holds
  have hbegins : goFunction.pattern.BeginsWith ["func"] := beginsWith_literal "func" _
  have hword := isKeyword_go "func" (by decide)
  refine finds_lines text functionName? named (fun line later all hlater => ?_) lines
  cases line with
  | function receiver? name parameters =>
    have htail : IsAbsent "func".toList (parameters.text ++ [')', ' ', '{', '\n'])
        (later.flatMap text) :=
      hword.isAbsent_part (parameters.free "func" (by decide)) rfl (hword.isAbsent_signs rfl _)
    have hall := Finds.found_append hgroup isSearchable_goFunction.reads hbegins
      (takes_function receiver? name _) (List.forall_mem_singleton.mpr htail) hlater
    simp only [List.append_assoc, List.cons_append, List.nil_append] at hall
    simp only [text, List.append_assoc, List.cons_append, List.nil_append]
    exact hall
  | declared kind name =>
    exact finds_of_notMem hgroup hbegins (by decide) (by simp [keywords]) hlater
  | other filler => exact finds_of_notMem hgroup hbegins (by decide) (by simp [keywords]) hlater

theorem finds_types (kind : GoKind) (lines : List GoLine) :
    kind.rule.pattern.Finds (lines.flatMap text)
      ((lines.filterMap (typeName? kind)).map named) := by
  have hgroup := (isSearchable_rule kind).holds
  have hbegins : kind.rule.pattern.BeginsWith ["type"] := by
    rw [rule_pattern]
    exact beginsWith_literal "type" _
  have hword := isKeyword_go "type" (by decide)
  refine finds_lines text (typeName? kind) named (fun line later all hlater => ?_) lines
  cases line with
  | function receiver? name parameters =>
    exact finds_of_notMem hgroup hbegins (by decide) (by simp [keywords]) hlater
  | declared other name =>
    have hend : IsAbsent "type".toList [' ', '{', '\n'] (later.flatMap text) :=
      hword.isAbsent_signs rfl _
    by_cases hkind : other = kind
    · have hall := Finds.found_append hgroup (isSearchable_rule kind).reads hbegins
        (takes_type kind name _) (List.forall_mem_singleton.mpr hend) hlater
      rw [typeName?, if_pos hkind]
      simp only [List.append_assoc, List.cons_append, List.nil_append] at hall
      simp only [text, hkind, List.append_assoc, List.cons_append, List.nil_append]
      exact hall
    · -- The keyword stands there, but the other word behind the name is refused.
      have hrefuses := refuses_type hkind name ([' ', '{', '\n'] ++ later.flatMap text)
      have hrest : IsAbsent "type".toList ("ype".toList ++ ' ' :: (name.text ++
          ' ' :: (other.word.toList ++ [' ', '{', '\n']))) (later.flatMap text) := by
        refine hword.isAbsent_part (by decide) rfl ?_
        refine hword.isAbsent_part (name.free "type" (by decide)) rfl ?_
        exact isAbsent_append.mpr ⟨isAbsent_of_notInfix (kind_notInfix "type" (by decide) other)
          (hword.notMem rfl), hend⟩
      have hall := Finds.append hgroup hbegins (List.forall_mem_singleton.mpr hrest) hlater
      rw [typeName?, if_neg hkind]
      simp only [text, List.append_assoc, List.cons_append, List.nil_append] at hall hrefuses ⊢
      exact .pass hrefuses hall
  | other filler => exact finds_of_notMem hgroup hbegins (by decide) (by simp [keywords]) hlater

end GoLine

/-- **A Go source of plain shape is reported completely and exactly.** -/
theorem go_observations_plain (lines : List GoLine) :
    Language.go.observations (GoLine.source lines) =
      (lines.filterMap (·.functionName?)).map ("Defines function: " ++ String.ofList ·) ++
        (lines.filterMap (·.typeName? .struct)).map ("Defines struct: " ++ String.ofList ·) ++
        (lines.filterMap (·.typeName? .interface)).map
          ("Defines interface: " ++ String.ofList ·) := by
  have hsource : (GoLine.source lines).toList = lines.flatMap GoLine.text := String.toList_ofList
  show Extractor.go.observations (GoLine.source lines) = _
  unfold Extractor.observations Extractor.go
  rw [hsource]
  simp only [List.flatMap_cons, List.flatMap_nil, List.append_nil]
  rw [labelled_of_finds isSearchable_goFunction.holds rfl (GoLine.finds_functions lines),
    labelled_of_finds isSearchable_goStruct.holds rfl (GoLine.finds_types .struct lines),
    labelled_of_finds isSearchable_goInterface.holds rfl (GoLine.finds_types .interface lines),
    List.append_assoc]
  rfl

end FileLore
