import FileLore.Proofs.Pattern.WholeRun
import FileLore.Proofs.Source.PlainLines

/-!
# Exported declarations

The pattern of exports reads `export`, perhaps `default`, perhaps a keyword, and a
name. Between the keyword and the name it asks for nothing, so it takes the
keyword also from the front of a longer word (`ExportHead.takes`).
-/

namespace FileLore

open Pattern Extractor Text

/-- The words that exported declarations begin with. -/
def declarationKeywords : List String := ["class", "function", "const", "let", "var"]

/-- White space, at least one character of it. -/
def IsGap (text : List Char) : Prop := text ≠ [] ∧ ∀ c ∈ text, isBlank c = true

/-- What may stand between `export` and what is exported. -/
inductive DefaultPart : List Char → Prop where
  | absent : DefaultPart []
  | present {blanks : List Char} (h : IsGap blanks) : DefaultPart ("default".toList ++ blanks)

/-- Whether the text is the beginning of an export up to the keyword of what is exported. -/
def ExportHead (head : List Char) : Prop :=
  ∃ blanks default, ∃ keyword ∈ declarationKeywords, IsGap blanks ∧ DefaultPart default ∧
    head = "export".toList ++ (blanks ++ (default ++ keyword.toList))

variable {text rest name head : List Char} {keyword : String}

theorem isWord_keyword : ∀ keyword ∈ declarationKeywords, IsWord keyword.toList := by
  decide

theorem isGap_space : IsGap [' '] := ⟨List.cons_ne_nil _ _, isBlank_space⟩

theorem IsGap.takes (h : IsGap text) (hrest : EndsRun isBlank rest) : gap.Takes text rest [] :=
  takes_oneOrMore h.1 h.2 hrest

theorem isGap_of_reads {start stop : Progress} (h : gap.Reads start stop) :
    ∃ blanks, IsGap blanks ∧ start.rest = blanks ++ stop.rest := by
  obtain ⟨blanks, hne, hblanks, hrest⟩ := h.oneOrMore
  exact ⟨blanks, ⟨hne, hblanks⟩, hrest⟩

theorem defaultPart_of_reads {start stop : Progress}
    (h : (optional (sequence [literal "default", gap])).Reads start stop) :
    ∃ part, DefaultPart part ∧ start.rest = part ++ stop.rest := by
  rcases h with hpart | rfl
  · obtain ⟨mid, hdefault, hgap⟩ := reads_sequence_cons.mp hpart
    obtain ⟨blanks, hblanks, hrest⟩ := isGap_of_reads hgap
    exact ⟨_, .present hblanks, by rw [hdefault.literal, hrest, List.append_assoc]⟩
  · exact ⟨[], .absent, rfl⟩

/-- In front of a keyword, the part between is taken if there is one. -/
theorem DefaultPart.takes (h : DefaultPart text) (hkeyword : keyword ∈ declarationKeywords)
    (rest : List Char) :
    (optional (sequence [literal "default", gap])).Takes text (keyword.toList ++ rest) [] := by
  cases h with
  | absent =>
    have hfree : PrefixFree ("default" :: declarationKeywords) := by decide
    have hne : "default" ≠ keyword := by
      rintro rfl
      exact absurd hkeyword (by decide)
    have hrefuses := hfree.refuses_literal List.mem_cons_self (List.mem_cons_of_mem _ hkeyword)
      hne rest
    exact (hrefuses.sequence [gap]).takes_optional
  | present h =>
    exact ((takes_literal "default" _).seq
      (h.takes ((isWord_keyword keyword hkeyword).endsRun_isBlank rest))).optional

theorem DefaultPart.endsRun (h : DefaultPart text) (hrest : EndsRun isBlank rest) :
    EndsRun isBlank (text ++ rest) := by
  cases h with
  | absent => exact hrest
  | present => exact endsRun_cons.mpr rfl

/-- What the pattern of exports reads in front of the name. -/
def exportLead : List Pattern :=
  [literal "export", gap, optional (sequence [literal "default", gap]),
    optional (choice (declarationKeywords.map literal)), mayGap]

/-- In front of an exported name stands white space or the keyword of an export. -/
theorem blank_or_exportHead_of_reads {start stop : Progress}
    (h : (sequence exportLead).Reads start stop) :
    (∃ text c, isBlank c = true ∧ start.rest = text ++ c :: stop.rest) ∨
      ∃ head, ExportHead head ∧ start.rest = head ++ stop.rest := by
  obtain ⟨afterExport, hexport, h⟩ := reads_sequence_cons.mp h
  obtain ⟨afterGap, hgap, h⟩ := reads_sequence_cons.mp h
  obtain ⟨afterDefault, hdefault, h⟩ := reads_sequence_cons.mp h
  obtain ⟨afterKeyword, hkeyword, h⟩ := reads_sequence_cons.mp h
  obtain ⟨blanks, hblanks, hend⟩ := Reads.many h
  obtain ⟨gapText, hgapText, hafterExport⟩ := isGap_of_reads hgap
  obtain ⟨part, hpart, hafterGap⟩ := defaultPart_of_reads hdefault
  have hstart : start.rest = "export".toList ++ (gapText ++ (part ++ afterDefault.rest)) := by
    rw [hexport.literal, hafterExport, hafterGap]
  rcases List.eq_nil_or_concat blanks with rfl | ⟨more, c, rfl⟩
  · rcases hkeyword with hchoice | rfl
    · -- Nothing stands between the keyword and the name.
      right
      obtain ⟨keyword, hmem, hafterDefault⟩ := Reads.choice hchoice
      refine ⟨_, ⟨gapText, part, keyword, hmem, hgapText, hpart, rfl⟩, ?_⟩
      rw [hstart, hafterDefault, hend]
      simp only [List.append_assoc, List.nil_append]
    · left
      have hblank : (sequence [gap, optional (sequence [literal "default", gap])]).EndsIn isBlank :=
        endsIn_oneOrMore.then_optional (EndsIn.cons endsIn_oneOrMore _)
      obtain ⟨text, c, hc, htext⟩ := hblank afterExport afterKeyword ⟨afterGap, hgap, hdefault⟩
      refine ⟨"export".toList ++ text, c, hc, ?_⟩
      rw [hexport.literal, htext, hend, List.append_assoc]
      rfl
  · left
    obtain ⟨before, hbefore⟩ := hkeyword.append
    refine ⟨"export".toList ++ (gapText ++ (part ++ (before ++ more))), c, hblanks c (by simp), ?_⟩
    rw [hstart, hbefore, hend]
    simp only [List.concat_eq_append, List.append_assoc, List.cons_append, List.nil_append]

/-- **The pattern of exports takes the beginning of an export and a word**, with or without white
space between them. -/
theorem ExportHead.takes (h : ExportHead head) (htext : ∀ c ∈ text, isBlank c = true)
    (hname : IsWord name) (hrest : EndsRun isWordChar rest) :
    scriptExport.pattern.Takes (head ++ (text ++ name)) rest [(1, name)] := by
  obtain ⟨blanks, default, keyword, hkeyword, hblanks, hdefault, rfl⟩ := h
  have hnamed : (sequence [mayGap, namedWord]).Takes (text ++ name) rest [(1, name)] :=
    (takes_many htext (hname.endsRun_isBlank rest)).seq (takes_namedWord hname hrest)
  have hdeclared := (takes_choice (by decide) hkeyword _).optional.cons hnamed
  have hafter : EndsRun isBlank (keyword.toList ++ (text ++ name) ++ rest) := by
    rw [List.append_assoc]
    exact (isWord_keyword keyword hkeyword).endsRun_isBlank _
  have hpart : (optional (sequence [literal "default", gap])).Takes default
      (keyword.toList ++ (text ++ name) ++ rest) [] := by
    rw [List.append_assoc]
    exact hdefault.takes hkeyword _
  have hgap : gap.Takes blanks (default ++ (keyword.toList ++ (text ++ name)) ++ rest) [] := by
    rw [List.append_assoc]
    exact hblanks.takes (hdefault.endsRun hafter)
  have hall := (takes_literal "export" _).cons (hgap.cons (hpart.cons hdeclared))
  rw [List.append_assoc, List.append_assoc, List.append_assoc]
  exact hall

end FileLore
