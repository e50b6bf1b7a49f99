import FileLore.Proofs.Pattern.Pieces
import FileLore.Proofs.Source.Extraction
import FileLore.Proofs.Text.Blank
import FileLore.Proofs.Text.Search
import FileLore.Proofs.Text.Word

/-!
# Lines of plain shape

What the languages have in common when a source is made of lines of a few plain
shapes: the parts of a line that are left open (`Stretch`), what the parts of the
patterns take of a line, and how a scan of all lines is put together from what is
found on each (`finds_lines`).
-/

namespace FileLore

open Pattern Extractor Text

variable {rule : ElementRule} {pattern : Pattern} {parts : List Pattern}
  {text more rest word : List Char} {words others : List (Nat × List Char)}

/-! ## Parts of lines -/

/-- A part of a line: characters of a kind, among which none of the keywords occurs. -/
structure Stretch (keywords : List String) (accepts : Char → Bool) where
  text : List Char
  accepted : ∀ c ∈ text, accepts c = true
  free : ∀ keyword ∈ keywords, ¬keyword.toList <:+: text

/-- A part of a line that holds at least one character. -/
structure FullStretch (keywords : List String) (accepts : Char → Bool) extends
    Stretch keywords accepts where
  ne_nil : text ≠ []

/-- A part of a line from a text that has been checked. -/
def Stretch.ofText {keywords : List String} {accepts : Char → Bool} (text : List Char)
    (h : (text.all accepts && keywords.all fun keyword => !occurs keyword.toList text) = true) :
    Stretch keywords accepts where
  text := text
  accepted := List.all_eq_true.mp (Bool.and_eq_true_iff.mp h).1
  free keyword hkeyword hoccurs := by
    have hnot := List.all_eq_true.mp (Bool.and_eq_true_iff.mp h).2 keyword hkeyword
    rw [occurs_iff.mpr hoccurs] at hnot
    cases hnot

/-- A part of a line with a first character from a text that has been checked. -/
def FullStretch.ofText {keywords : List String} {accepts : Char → Bool} (first : Char)
    (more : List Char) (h : ((first :: more).all accepts &&
      keywords.all fun keyword => !occurs keyword.toList (first :: more)) = true) :
    FullStretch keywords accepts :=
  ⟨.ofText (first :: more) h, List.cons_ne_nil first more⟩

/-- A word in which no keyword occurs. -/
abbrev PlainWord (keywords : List String) : Type := FullStretch keywords isWordChar

theorem FullStretch.isWord {keywords : List String} (name : PlainWord keywords) :
    IsWord name.text :=
  ⟨name.ne_nil, name.accepted⟩

theorem Stretch.notMem {keywords : List String} {accepts : Char → Bool}
    (stretch : Stretch keywords accepts) {c : Char} (hc : accepts c = false) :
    c ∉ stretch.text := by
  intro hmem
  rw [stretch.accepted c hmem] at hc
  cases hc

/-- Whether a word is made of small letters, as all keywords are. -/
structure IsKeyword (word : List Char) : Prop where
  ne_nil : word ≠ []
  letters : ∀ c ∈ word, c.isLower = true

instance (word : List Char) : Decidable (IsKeyword word) :=
  decidable_of_iff (word ≠ [] ∧ word.all Char.isLower = true)
    ⟨fun h => ⟨h.1, List.all_eq_true.mp h.2⟩, fun h => ⟨h.ne_nil, List.all_eq_true.mpr h.letters⟩⟩

theorem IsKeyword.notMem (h : IsKeyword word) {sign : Char} (hsign : sign.isLower = false) :
    sign ∉ word := by
  intro hmem
  rw [h.letters sign hmem] at hsign
  cases hsign

/-- A keyword does not begin at a sign. -/
theorem IsKeyword.isAbsent_sign (h : IsKeyword word) {sign : Char} (hsign : sign.isLower = false)
    (htext : IsAbsent word text rest) : IsAbsent word (sign :: text) rest :=
  (isAbsent_cons_of_notMem h.ne_nil (h.notMem hsign)).mpr htext

/-- A keyword that is absent from a part of a line is absent from it and what follows a sign. -/
theorem IsKeyword.isAbsent_part (h : IsKeyword word) {part : List Char} (hpart : ¬word <:+: part)
    {sign : Char} (hsign : sign.isLower = false) (htext : IsAbsent word text rest) :
    IsAbsent word (part ++ sign :: text) rest :=
  .append_cons hpart h.ne_nil (h.notMem hsign) htext

/-- A keyword is absent from a row of signs. -/
theorem IsKeyword.isAbsent_signs (h : IsKeyword word) {signs : List Char}
    (hsigns : signs.all (!·.isLower) = true) (rest : List Char) : IsAbsent word signs rest := by
  induction signs with
  | nil => exact isAbsent_nil word rest
  | cons sign signs ih =>
    rw [List.all_cons, Bool.and_eq_true, Bool.not_eq_true'] at hsigns
    exact h.isAbsent_sign hsigns.1 (ih hsigns.2)

/-- As many spaces in a row. -/
def spaces (count : Nat) : List Char := List.replicate count ' '

theorem IsKeyword.isAbsent_spaces (h : IsKeyword word) (count : Nat) (rest : List Char) :
    IsAbsent word (spaces count) rest := by
  refine h.isAbsent_signs (List.all_eq_true.mpr fun c hc => ?_) rest
  rw [List.eq_of_mem_replicate hc]
  rfl

/-! ## What the parts of patterns take -/

theorem Text.IsWord.endsRun_isBlank (h : IsWord word) (rest : List Char) :
    EndsRun isBlank (word ++ rest) := by
  obtain ⟨c, more, rfl⟩ := List.exists_cons_of_ne_nil h.ne_nil
  exact endsRun_cons.mpr (isBlank_of_isWordChar (h.chars c List.mem_cons_self))

namespace Extractor

theorem isBlank_space : ∀ c ∈ [' '], isBlank c = true :=
  List.forall_mem_singleton.mpr rfl

theorem takes_gap (h : EndsRun isBlank rest) : gap.Takes [' '] rest [] :=
  takes_oneOrMore (List.cons_ne_nil _ _) isBlank_space h

theorem takes_mayGap (h : EndsRun isBlank rest) : mayGap.Takes [' '] rest [] :=
  takes_many isBlank_space h

theorem takes_mayGap_nil {c : Char} (h : isBlank c = false) (rest : List Char) :
    mayGap.Takes [] (c :: rest) [] :=
  takes_many (fun _ hc => absurd hc List.not_mem_nil) (endsRun_cons.mpr h)

theorem takes_namedWord (hword : IsWord word) (h : EndsRun isWordChar rest) :
    namedWord.Takes word rest [(1, word)] :=
  (takes_oneOrMore hword.ne_nil hword.chars h).group 1

/-- A space and a word are taken, and the word is remembered. -/
theorem takes_gap_namedWord (hword : IsWord word) (hmore : EndsRun isWordChar (more ++ rest))
    (h : (sequence parts).Takes more rest words) :
    (sequence (gap :: namedWord :: parts)).Takes (' ' :: (word ++ more)) rest
      (words ++ [(1, word)]) := by
  have hgap : gap.Takes [' '] ((word ++ more) ++ rest) [] := by
    rw [List.append_assoc]
    exact takes_gap (hword.endsRun_isBlank _)
  have hall := hgap.cons ((takes_namedWord hword hmore).cons h)
  rw [List.append_nil] at hall
  exact hall

/-- A bracket is taken directly behind a name. -/
theorem takes_opening (rest : List Char) :
    (sequence [mayGap, literal "("]).Takes ['('] rest [] := by
  have hnone : mayGap.Takes [] (['('] ++ rest) [] := takes_mayGap_nil (by decide) rest
  exact hnone.seq (takes_literal "(" rest)

/-- Brackets are taken up to the first one that closes. -/
theorem takes_bracketed (h : ')' ∉ text) (rest : List Char) :
    bracketed.Takes ('(' :: (text ++ [')'])) rest [] := by
  have hinner : (many (· != ')')).Takes text (')' :: rest) [] := by
    refine takes_many (fun c hc => ?_) (endsRun_cons.mpr rfl)
    rw [bne_iff_ne]
    rintro rfl
    exact h hc
  exact (takes_literal "(" _).cons (hinner.cons ((takes_literal ")" rest).cons (takes_nil rest)))

/-- A pattern that takes brackets is followed by what follows them. -/
theorem cons_of_takes_bracketed
    (h : pattern.Takes ('(' :: (text ++ [')'])) (more ++ rest) words)
    (h' : (sequence parts).Takes more rest others) :
    (sequence (pattern :: parts)).Takes ('(' :: (text ++ ')' :: more)) rest (others ++ words) := by
  have hall := h.cons h'
  rw [List.cons_append, List.append_assoc] at hall
  exact hall

theorem refuses_bracketed {c : Char} (h : c ≠ '(') : bracketed.Refuses (c :: rest) := by
  refine Refuses.sequence (refuses_literal fun hbegin => ?_) _
  have hstart : '(' :: [] <+: c :: rest := hbegin
  exact h (List.cons_prefix_cons.mp hstart).1.symm

/-- White space that is read as a whole is the one space that stands there. -/
theorem rest_of_blanks {blanks after : List Char} (h : blanks ++ after = ' ' :: rest)
    (hblanks : ∀ c ∈ blanks, isBlank c = true) (hafter : EndsRun isBlank after)
    (hrest : EndsRun isBlank rest) : after = rest := by
  have hspace : blanks ++ after = [' '] ++ rest := h
  exact (run_unique hspace hblanks isBlank_space hafter hrest).2

/-- A space and a word are read as such, if what comes next cannot be read within a word. -/
theorem reads_gap_namedWord {start stop : Progress}
    (h : (sequence (gap :: namedWord :: parts)).Reads start stop)
    (hparts : (sequence parts).FollowsRun isWordChar) (hword : IsWord word)
    (hrest : EndsRun isWordChar rest) (hstart : start.rest = ' ' :: (word ++ rest)) :
    ∃ mid : Progress, mid.rest = rest ∧ (sequence parts).Reads mid stop := by
  obtain ⟨first, hgap, h⟩ := reads_sequence_cons.mp h
  obtain ⟨second, hnamed, h⟩ := reads_sequence_cons.mp h
  obtain ⟨blanks, -, hblanks, hbefore⟩ := hgap.oneOrMore
  obtain ⟨third, hnamed, rfl⟩ := hnamed
  obtain ⟨name, hne, hname, hafter⟩ := hnamed.oneOrMore
  have hend := hparts _ stop h
  have hstop : EndsRun isBlank first.rest := hafter ▸ (IsWord.mk hne hname).endsRun_isBlank _
  have hfirst := rest_of_blanks (hbefore.symm.trans hstart) hblanks hstop (hword.endsRun_isBlank _)
  rw [hafter] at hfirst
  exact ⟨first.remember 1 third, (run_unique hfirst hname hword.chars hend hrest).2, h⟩

end Extractor

/-! ## Scans of lines -/

/-- **What is found on each line is found in all of them.** -/
theorem finds_lines {Line Entry : Type} (text : Line → List Char) (entryOf : Line → Option Entry)
    (words : Entry → List (Nat × List Char))
    (hline : ∀ (line : Line) (later : List Line) (all : List (List (Nat × List Char))),
      pattern.Finds (later.flatMap text) all →
        pattern.Finds (text line ++ later.flatMap text) (((entryOf line).map words).toList ++ all))
    (lines : List Line) :
    pattern.Finds (lines.flatMap text) ((lines.filterMap entryOf).map words) := by
  induction lines with
  | nil => exact .done
  | cons line later ih =>
    have hall := hline line later _ ih
    rw [List.flatMap_cons, List.filterMap_cons]
    cases hentry : entryOf line with
    | none =>
      rw [hentry] at hall
      exact hall
    | some entry =>
      rw [hentry] at hall
      exact hall

variable {Line Entry : Type} {indent : Line → Nat} {statement : Line → List Char}
  {entryOf : Line → Option Entry} {wordsOf : Entry → List (Nat × List Char)}
  {keywords : List String}

/-- **A scan of lines that may be indented finds the statements that the pattern takes**, up to a
part in which no keyword begins, and passes over the others. -/
theorem finds_indented (hgroup : pattern.roundsHoldNoGroup = true)
    (hreads : pattern.readsAlways = true) (hbegins : pattern.BeginsWith keywords)
    (hkeywords : ∀ keyword ∈ keywords, IsKeyword keyword.toList)
    (hnone : ∀ line, entryOf line = none → ∀ keyword ∈ keywords, ∀ rest,
      IsAbsent keyword.toList (statement line) ('\n' :: rest))
    (htakes : ∀ line entry, entryOf line = some entry → ∃ taken left,
      statement line = taken ++ left ∧
        (∀ keyword ∈ keywords, ∀ rest, IsAbsent keyword.toList left ('\n' :: rest)) ∧
        ∀ rest, pattern.Takes taken (left ++ '\n' :: rest) (wordsOf entry))
    (lines : List Line) :
    pattern.Finds (lines.flatMap fun line => spaces (indent line) ++ (statement line ++ ['\n']))
      ((lines.filterMap entryOf).map wordsOf) := by
  refine finds_lines _ entryOf wordsOf (fun line later all hlater => ?_) lines
  have hindent : ∀ keyword ∈ keywords, ∀ rest,
      IsAbsent keyword.toList (spaces (indent line)) rest :=
    fun keyword hmem rest => (hkeywords keyword hmem).isAbsent_spaces (indent line) rest
  have hend : ∀ keyword ∈ keywords, ∀ rest, IsAbsent keyword.toList ['\n'] rest :=
    fun keyword hmem rest => (hkeywords keyword hmem).isAbsent_sign rfl (isAbsent_nil _ rest)
  rw [List.append_assoc, List.append_assoc]
  refine .append hgroup hbegins (fun keyword hmem => hindent keyword hmem _) ?_
  cases hentry : entryOf line with
  | some entry =>
    obtain ⟨taken, left, hstatement, hleft, htaken⟩ := htakes line entry hentry
    have hafter : ∀ keyword ∈ keywords, ∀ rest, IsAbsent keyword.toList (left ++ ['\n']) rest :=
      fun keyword hmem rest => isAbsent_append.mpr ⟨hleft keyword hmem rest, hend keyword hmem rest⟩
    have hall := Finds.found_append hgroup hreads hbegins
      (by simpa using htaken _) (fun keyword hmem => hafter keyword hmem _) hlater
    rw [hstatement]
    simpa using hall
  | none =>
    refine .append hgroup hbegins (fun keyword hmem => ?_)
      (.append hgroup hbegins (fun keyword hmem => hend keyword hmem _) hlater)
    exact hnone line hentry keyword hmem _

/-- What a rule tells of the matches that a scan finds. -/
theorem observations_of_finds (hgroup : rule.pattern.roundsHoldNoGroup = true)
    {all : List (List (Nat × List Char))} (h : rule.pattern.Finds text all) :
    rule.observations text = all.filterMap fun words =>
      rule.report fun index => (words.lookup index).map String.ofList := by
  have hgroups := congrArg (List.filterMap fun group : Nat → Option (List Char) =>
    rule.report fun index => (group index).map String.ofList) (h.groups_allMatches hgroup)
  rw [List.filterMap_map, List.filterMap_map] at hgroups
  exact hgroups

/-- What a match remembers that names something. -/
def named (name : List Char) : List (Nat × List Char) := [(1, name)]

/-- A rule with a label tells the names that its scan finds. -/
theorem labelled_of_finds (hgroup : rule.pattern.roundsHoldNoGroup = true) {label : String}
    (hreport : rule.report = labelled label) {names : List (List Char)}
    (h : rule.pattern.Finds text (names.map named)) :
    rule.observations text = names.map fun name => label ++ ": " ++ String.ofList name := by
  rw [observations_of_finds hgroup h, hreport, List.filterMap_map, ← List.filterMap_eq_map]
  rfl

end FileLore
