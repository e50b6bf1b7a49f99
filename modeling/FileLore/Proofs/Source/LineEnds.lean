import FileLore.Proofs.Pattern.ErasedScan
import FileLore.Proofs.Source.PlainPython
import FileLore.Proofs.Source.WholeNames
import FileLore.Source.Import
import FileLore.Source.Marker

/-!
# Sources with either line end

What is read off a source does not depend on the way its lines end, apart from the
items of imports in Python: these reach to the end of the line and include a
carriage return there (`observations_lineEnds`). All other patterns ignore carriage
returns; markers are looked for on lines that have lost them.
-/

namespace FileLore

open Pattern Extractor Text

variable {parts : List Pattern} {rule : ElementRule} {label : String} {source : List Char}

/-! ## Parts of patterns -/

theorem ignoresReturns_word : IgnoresReturns (oneOrMore isWordChar) := by
  have hreturn : isWordChar '\r' = false := isWordChar_of_isBlank rfl
  have hfeed : isWordChar '\n' = false := isWordChar_of_isBlank rfl
  exact (ignoresReturns_one hreturn hfeed).seq rfl (ignoresReturns_many (hreturn.trans hfeed.symm))

theorem ignoresReturns_namedWord : IgnoresReturns namedWord := ignoresReturns_word.group 1

theorem ignoresReturns_origin : IgnoresReturns (group 1 (oneOrMore (!isBlank ·))) :=
  ((ignoresReturns_one rfl rfl).seq rfl (ignoresReturns_many rfl)).group 1

theorem ignoresReturns_mayGap : IgnoresReturns mayGap := ignoresReturns_many rfl

theorem ignoresReturns_bracketed : IgnoresReturns bracketed :=
  (ignoresReturns_literal (by decide)).cons rfl
    ((ignoresReturns_many rfl).cons rfl (ignoresReturns_literal (by decide)))

/-- White space ignores carriage returns in front of what is no white space. -/
theorem ignoresReturns_gap_cons (h : IgnoresReturns (sequence parts))
    (hfollows : FollowsRun isBlank (sequence parts))
    (hholds : (sequence parts).roundsHoldNoGroup = true) :
    IgnoresReturns (sequence (gap :: parts)) :=
  h.after_run (hfollows.absorbs hholds) rfl rfl

theorem followsBlanks_word : FollowsRun isBlank (oneOrMore isWordChar) :=
  followsRun_oneOrMore fun _ => isBlank_of_isWordChar

theorem followsBlanks_namedWord (parts : List Pattern) :
    FollowsRun isBlank (sequence (namedWord :: parts)) :=
  (followsBlanks_word.group 1).cons parts

/-- White space and the word behind it. -/
theorem ignoresReturns_gap_namedWord (h : IgnoresReturns (sequence parts))
    (hholds : (sequence parts).roundsHoldNoGroup = true) :
    IgnoresReturns (sequence (gap :: namedWord :: parts)) := by
  refine ignoresReturns_gap_cons (ignoresReturns_namedWord.cons rfl h)
    (followsBlanks_namedWord parts) ?_
  cases parts with
  | nil => rfl
  | cons => exact hholds

/-! ## Rules -/

theorem ignoresReturns_pythonClass : IgnoresReturns pythonClass.pattern :=
  (ignoresReturns_literal (by decide)).cons rfl (ignoresReturns_gap_namedWord
    (ignoresReturns_bracketed.optional.cons rfl (ignoresReturns_literal (by decide))) rfl)

theorem ignoresReturns_pythonFunction : IgnoresReturns pythonFunction.pattern :=
  (ignoresReturns_literal (by decide)).cons rfl (ignoresReturns_gap_namedWord
    (ignoresReturns_mayGap.cons rfl (ignoresReturns_bracketed.cons rfl
      (ignoresReturns_literal (by decide)))) rfl)

/-- An opening bracket, perhaps behind white space. -/
theorem ignoresReturns_opening : IgnoresReturns (sequence [mayGap, literal "("]) :=
  ignoresReturns_mayGap.cons rfl (ignoresReturns_literal (by decide))

theorem ignoresReturns_scriptFunction : IgnoresReturns scriptFunction.pattern :=
  (ignoresReturns_literal (by decide)).cons rfl
    (ignoresReturns_gap_namedWord ignoresReturns_opening rfl)

/-- What stands between the equals sign and the arrow. -/
theorem ignoresReturns_parameters :
    IgnoresReturns (repeated (either bracketed (one (· != '=')))) := by
  have hrefuses (rest : List Char) : bracketed.Refuses ('\r' :: rest) :=
    refuses_bracketed (by decide)
  exact .repeated ((passesReturns_one rfl).either ignoresReturns_bracketed hrefuses) rfl rfl

theorem ignoresReturns_scriptArrow : IgnoresReturns scriptArrow.pattern := by
  have hbinder : IgnoresReturns (choice (["const", "let", "var"].map literal)) :=
    ignoresReturns_choice (by decide)
  have harrow : IgnoresReturns (sequence [literal "=>"]) := ignoresReturns_literal (by decide)
  have hvalue := ignoresReturns_mayGap.cons rfl (ignoresReturns_parameters.cons rfl harrow)
  exact hbinder.cons rfl (ignoresReturns_gap_namedWord (ignoresReturns_mayGap.cons rfl
    ((ignoresReturns_literal (by decide)).cons rfl hvalue)) rfl)

theorem ignoresReturns_scriptClass : IgnoresReturns scriptClass.pattern := by
  have hbase : IgnoresReturns (sequence [gap, oneOrMore isWordChar]) :=
    ignoresReturns_gap_cons ignoresReturns_word followsBlanks_word rfl
  have hextends : IgnoresReturns (sequence [gap, literal "extends", gap, oneOrMore isWordChar]) :=
    ignoresReturns_gap_cons ((ignoresReturns_literal (by decide)).cons rfl hbase)
      ((followsRun_literal rfl (by decide)).cons _) rfl
  exact (ignoresReturns_literal (by decide)).cons rfl
    (ignoresReturns_gap_namedWord hextends.optional rfl)

/-- What an export goes on with behind its keyword may begin with white space, so that the gap in
front of it may end anywhere within the white space. -/
theorem ignoresReturns_scriptExport : IgnoresReturns scriptExport.pattern := by
  let words := ["class", "function", "const", "let", "var"]
  have hname : IgnoresReturns (sequence [mayGap, namedWord]) :=
    ignoresReturns_mayGap.cons rfl ignoresReturns_namedWord
  have hchoice : IgnoresReturns (choice (words.map literal)) := ignoresReturns_choice (by decide)
  have hdeclared : IgnoresReturns (sequence [optional (choice (words.map literal)), mayGap,
      namedWord]) := hchoice.optional.cons rfl hname
  have hfollows : FollowsRun isBlank (choice (words.map literal)) := followsRun_choice (by decide)
  have habsorbs : AbsorbsRun isBlank (sequence [optional (choice (words.map literal)), mayGap,
      namedWord]) :=
    (absorbsRun_many_cons (followsBlanks_namedWord []) rfl).optional_cons hfollows rfl
  have hdefault : FollowsRun isBlank (sequence [literal "default", gap]) :=
    (followsRun_literal rfl (by decide)).cons _
  have hlead : IgnoresReturns (sequence ([literal "default", gap] ++
      [optional (choice (words.map literal)), mayGap, namedWord])) :=
    (ignoresReturns_literal (by decide)).cons rfl (hdeclared.after_run habsorbs rfl rfl)
  exact (ignoresReturns_literal (by decide)).cons rfl
    ((hlead.optional_cons hdeclared).after_run (habsorbs.optional_cons hdefault rfl) rfl rfl)

theorem ignoresReturns_goFunction : IgnoresReturns goFunction.pattern := by
  have hname : IgnoresReturns (sequence [namedWord, mayGap, literal "("]) :=
    ignoresReturns_namedWord.cons rfl ignoresReturns_opening
  have hreceiver : IgnoresReturns (sequence ([bracketed, gap] ++
      [namedWord, mayGap, literal "("])) :=
    ignoresReturns_bracketed.cons rfl (ignoresReturns_gap_namedWord ignoresReturns_opening rfl)
  have hbracketed : FollowsRun isBlank (sequence [bracketed, gap]) := by
    refine FollowsRun.cons ?_ _
    exact (followsRun_literal rfl (by decide)).cons _
  exact (ignoresReturns_literal (by decide)).cons rfl
    (ignoresReturns_gap_cons (hreceiver.optional_cons hname)
      (hbracketed.optional_cons (followsBlanks_namedWord _)) rfl)

/-- A kind of type behind its name. -/
theorem ignoresReturns_goType {word : String} {c : Char} {more : List Char}
    (hword : word.toList = c :: more) (hc : isBlank c = false) (h : OnOneLine word) :
    IgnoresReturns (sequence [literal "type", gap, namedWord, gap, literal word]) := by
  have hkind : IgnoresReturns (sequence [gap, literal word]) :=
    ignoresReturns_gap_cons (ignoresReturns_literal h) (followsRun_literal hword hc)
      (roundsHoldNoGroup_of_holdsNoGroup (holdsNoGroup_literal word))
  refine (ignoresReturns_literal (by decide)).cons rfl (ignoresReturns_gap_namedWord hkind ?_)
  exact roundsHoldNoGroup_of_holdsNoGroup (holdsNoGroup_literal word)

theorem NameRule.ignoresReturns (h : NameRule label rule) : IgnoresReturns rule.pattern := by
  cases h with
  | pythonClass => exact ignoresReturns_pythonClass
  | pythonFunction => exact ignoresReturns_pythonFunction
  | scriptFunction => exact ignoresReturns_scriptFunction
  | scriptArrow => exact ignoresReturns_scriptArrow
  | scriptClass => exact ignoresReturns_scriptClass
  | scriptExport => exact ignoresReturns_scriptExport
  | goFunction => exact ignoresReturns_goFunction
  | goStruct => exact ignoresReturns_goType rfl (by decide) (by decide)
  | goInterface => exact ignoresReturns_goType rfl (by decide) (by decide)

/-! ## Observations of names -/

theorem NameRule.isSearchable (h : NameRule label rule) : IsSearchable rule 1 := by
  cases h <;> exact ⟨rfl, rfl, rfl⟩

theorem NameRule.refuses_return (h : NameRule label rule) (rest : List Char) :
    rule.pattern.Refuses ('\r' :: rest) := by
  have hholds := h.isSearchable.holds
  cases h with
  | scriptArrow =>
    exact (beginsWith_choice ["const", "let", "var"] _).refuses hholds (by decide) rest
  | _ => exact (beginsWith_literal _ _).refuses hholds (by decide) rest

theorem NameRule.remembersWithout (h : NameRule label rule) :
    rule.pattern.remembersWithout 1 '\r' = true := by
  cases h <;> rfl

theorem NameRule.report_congr {groups other : Nat → Option String} (h : NameRule label rule)
    (hname : groups 1 = other 1) : rule.report groups = rule.report other := by
  cases h with
  | pythonFunction =>
    show (groups 1).bind _ = (other 1).bind _
    rw [hname]
  | _ => exact congrArg (Option.map _) hname

/-- **Names are reported alike** with and without carriage returns. -/
theorem NameRule.observations_erased (h : NameRule label rule) (hsource : ReturnsEndLines source) :
    rule.observations (withoutReturns source) = rule.observations source := by
  have halike := h.ignoresReturns.readsAlike h.isSearchable.holds h.refuses_return hsource
  rw [ElementRule.observations, halike.allMatches, List.filterMap_map]
  refine List.filterMap_congr fun hit hhit => h.report_congr ?_
  exact congrArg (Option.map String.ofList)
    (group?_erasedMatch_eq h.isSearchable.holds h.isSearchable.reads h.remembersWithout hhit)

end FileLore
