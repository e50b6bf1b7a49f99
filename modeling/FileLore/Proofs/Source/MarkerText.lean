import FileLore.Proofs.Text.Blank
import FileLore.Proofs.Text.LetterCase
import FileLore.Proofs.Text.Search
import FileLore.Source.Marker
import Mathlib.Data.Bool.AllAny
import Mathlib.Data.List.TakeWhile

/-!
# Markers told from the line alone

Where a form of marker stands on a line and what its text is, told without patterns.
A form stands where its opener is followed by white space, if any, by the keyword in
any case, and by something that a text can be taken from: a character and, in a
comment that has to be closed, the end of the comment farther on (`StandsOn`). The
line has a marker just if one of the forms stands there (`plainly?_isSome_iff`), and
the first of these at its first place gives it. The text begins behind a colon and
white space, but as soon as nothing could be taken there, white space is given back
one character at a time, and in the end the colon.
-/

namespace FileLore

open Text

namespace MarkerForm

variable {form : MarkerForm} {line text after : List Char}

/-- What ends a comment that has to be closed. -/
def closer : List Char := ['*', '/']

/-- The part of a text before the end of the comment that comes first in it. -/
def beforeCloser? : List Char → Option (List Char)
  | [] => none
  | c :: rest =>
    if closer.isPrefixOf (c :: rest) then some [] else (beforeCloser? rest).map (c :: ·)

/-- The text that a marker takes where its text begins: all there is or, in a comment that has to be
closed, what stands before the end of the comment; at least one character. -/
def taken? (form : MarkerForm) : List Char → Option (List Char)
  | [] => none
  | c :: rest => if form.closed then (beforeCloser? rest).map (c :: ·) else some (c :: rest)

/-- What can be left of a text by skipping white space: all of it skipped at first, and then one
character after the other given back from its end. -/
def behindBlanks : List Char → List (List Char)
  | [] => [[]]
  | c :: rest => if isBlank c then behindBlanks rest ++ [c :: rest] else [c :: rest]

/-- Where the text of a marker can begin behind its keyword, in the order in which it is tried:
behind a colon and white space, with white space given back, and last with the colon given back. -/
def beginnings : List Char → List (List Char)
  | ':' :: rest => behindBlanks rest ++ [':' :: rest]
  | after => behindBlanks after

/-- The text of a marker from what follows its keyword. -/
def textBehind? (form : MarkerForm) (after : List Char) : Option (List Char) :=
  (beginnings after).findSome? form.taken?

/-- What follows a keyword, given in capitals, if the text begins with it in any case. -/
def afterSpelling? : List Char → List Char → Option (List Char)
  | [], text => some text
  | _ :: _, [] => none
  | letter :: tag, c :: text => if c ∈ spellings letter then afterSpelling? tag text else none

/-- What follows the keyword if the text begins with the form: its opener, white space and its
keyword. -/
def afterKeyword? (form : MarkerForm) (text : List Char) : Option (List Char) :=
  ((afterStart? form.opener.toList text).map trimStart).bind
    (afterSpelling? form.keyword.tag.toList)

/-- What follows the keyword if the text begins with the form and something can be taken. -/
def usableAfter? (form : MarkerForm) (text : List Char) : Option (List Char) :=
  (form.afterKeyword? text).filter fun after => (form.taken? after).isSome

/-- What follows the keyword at the leftmost place of the line where the form stands and something
can be taken. -/
def standsOn? (form : MarkerForm) (line : List Char) : Option (List Char) :=
  line.tails.findSome? form.usableAfter?

end MarkerForm

/-- The first form that stands on a line, with what follows its keyword. -/
def Marker.formOn? (line : List Char) : Option (MarkerForm × List Char) :=
  MarkerForm.all.findSome? fun form => (form.standsOn? line).map fun after => (form, after)

/-- The marker on a line, told without patterns. -/
def Marker.plainly? (number : Nat) (line : List Char) : Option Marker := do
  let (form, after) ← formOn? line
  let text ← form.textBehind? after
  return {
    kind := MarkerKind.ofLine line
    text := String.ofList (trim text)
    line := number
    context := String.ofList (trim line) }

namespace MarkerForm

variable {form : MarkerForm} {line text after : List Char}

/-! ## What can be taken -/

theorem beforeCloser?_isSome (text : List Char) :
    (beforeCloser? text).isSome = occurs closer text := by
  induction text with
  | nil => rfl
  | cons c rest ih =>
    rw [beforeCloser?, occurs, ← ih]
    by_cases h : closer.isPrefixOf (c :: rest) = true
    · rw [if_pos h, h]
      rfl
    · rw [if_neg h, eq_false_of_ne_true h, Option.isSome_map, Bool.false_or]

theorem beforeCloser?_isPrefix {before : List Char} (h : beforeCloser? text = some before) :
    before <+: text := by
  induction text generalizing before with
  | nil => cases h
  | cons c rest ih =>
    rw [beforeCloser?] at h
    split at h
    · cases h
      exact List.nil_prefix
    · obtain ⟨others, hothers, rfl⟩ := Option.map_eq_some_iff.mp h
      exact List.prefix_cons_inj c |>.mpr (ih hothers)

/-- Whether a text can be taken: there is a character and, in a comment that has to be closed, the
end of the comment behind it. -/
def IsUsable (form : MarkerForm) (after : List Char) : Prop :=
  ∃ c rest, after = c :: rest ∧ (form.closed = true → closer <:+: rest)

theorem taken?_isSome_iff : (form.taken? after).isSome ↔ form.IsUsable after := by
  cases after with
  | nil => exact ⟨nofun, by rintro ⟨c, rest, h, -⟩; cases h⟩
  | cons c rest =>
    have husable : form.IsUsable (c :: rest) ↔ (form.closed = true → closer <:+: rest) := by
      refine ⟨?_, fun h => ⟨c, rest, rfl, h⟩⟩
      rintro ⟨_, _, ⟨⟩, h⟩
      exact h
    rw [husable, taken?, ← occurs_iff, ← beforeCloser?_isSome]
    by_cases hclosed : form.closed = true
    · rw [if_pos hclosed, Option.isSome_map]
      exact ⟨fun h _ => h, fun h => h hclosed⟩
    · rw [if_neg hclosed]
      exact ⟨fun _ h => absurd h hclosed, fun _ => rfl⟩

/-- What can be taken behind a place can be taken from there on. -/
theorem IsUsable.append (h : form.IsUsable after) (before : List Char) :
    form.IsUsable (before ++ after) := by
  cases before with
  | nil => exact h
  | cons c before =>
    obtain ⟨d, rest, rfl, hrest⟩ := h
    refine ⟨c, before ++ d :: rest, rfl, fun hclosed => ?_⟩
    exact (hrest hclosed).trans ((List.suffix_cons d rest).trans (List.suffix_append _ _)).isInfix

/-- What is left of a text by skipping white space is an end of it. -/
theorem behindBlanks_suffix {text place : List Char} (h : place ∈ behindBlanks text) :
    place <:+ text := by
  induction text with
  | nil =>
    rw [List.mem_singleton.mp h]
  | cons c rest ih =>
    rw [behindBlanks] at h
    split at h
    · rcases List.mem_append.mp h with h | h
      · exact (ih h).trans (List.suffix_cons c rest)
      · rw [List.mem_singleton.mp h]
    · rw [List.mem_singleton.mp h]

theorem self_mem_behindBlanks (text : List Char) : text ∈ behindBlanks text := by
  cases text with
  | nil => exact List.mem_singleton_self _
  | cons c rest =>
    rw [behindBlanks]
    split
    · exact List.mem_append_right _ (List.mem_singleton_self _)
    · exact List.mem_singleton_self _

/-- The places where a text can begin lie behind the keyword. -/
theorem beginnings_suffix {place : List Char} (h : place ∈ beginnings after) : place <:+ after := by
  unfold beginnings at h
  split at h
  · next rest =>
    rcases List.mem_append.mp h with h | h
    · exact (behindBlanks_suffix h).trans (List.suffix_cons ':' rest)
    · rw [List.mem_singleton.mp h]
  · exact behindBlanks_suffix h

/-- A text can begin right behind the keyword. -/
theorem self_mem_beginnings (after : List Char) : after ∈ beginnings after := by
  unfold beginnings
  split
  · exact List.mem_append_right _ (List.mem_singleton_self _)
  · exact self_mem_behindBlanks _

theorem beginnings_of_head?_ne (h : after.head? ≠ some ':') :
    beginnings after = behindBlanks after := by
  unfold beginnings
  split
  · exact absurd rfl h
  · rfl

/-- **There is a text just if one can be taken right behind the keyword.** -/
theorem textBehind?_isSome_iff : (form.textBehind? after).isSome ↔ form.IsUsable after := by
  unfold textBehind?
  rw [List.findSome?_isSome_iff]
  constructor
  · rintro ⟨place, hplace, htaken⟩
    obtain ⟨before, rfl⟩ := beginnings_suffix hplace
    exact (taken?_isSome_iff.mp htaken).append before
  · exact fun h => ⟨after, self_mem_beginnings after, taken?_isSome_iff.mpr h⟩

theorem textBehind?_isSome (form : MarkerForm) (after : List Char) :
    (form.textBehind? after).isSome = (form.taken? after).isSome := by
  rw [Bool.eq_iff_iff, textBehind?_isSome_iff, taken?_isSome_iff]

/-- What follows a keyword has to be looked at only if something can be taken. -/
theorem usableAfter?_bind (form : MarkerForm) (text : List Char) :
    (form.usableAfter? text).bind form.textBehind? =
      (form.afterKeyword? text).bind form.textBehind? := by
  unfold usableAfter?
  cases form.afterKeyword? text with
  | none => rfl
  | some after =>
    rw [Option.filter_some, ← textBehind?_isSome]
    cases h : form.textBehind? after with
    | none => exact h.symm
    | some text => rfl

/-! ## Where a form stands -/

/-- Whether a word is the given one, in capitals, but for the cases of its letters. -/
abbrev Spells (tag word : List Char) : Prop :=
  List.Forall₂ (fun letter c => c ∈ spellings letter) tag word

/-- The keyword is read off the word that spells it. -/
theorem afterSpelling?_eq_some_iff {tag : List Char} :
    afterSpelling? tag text = some after ↔ ∃ word, Spells tag word ∧ text = word ++ after := by
  induction tag generalizing text with
  | nil =>
    rw [afterSpelling?, Option.some_inj]
    constructor
    · exact fun h => ⟨[], .nil, h⟩
    · rintro ⟨_, ⟨⟩, h⟩
      exact h
  | cons letter tag ih =>
    cases text with
    | nil =>
      refine ⟨nofun, ?_⟩
      rintro ⟨_, hspells, h⟩
      cases hspells
      cases h
    | cons c text =>
      rw [afterSpelling?]
      by_cases hc : c ∈ spellings letter
      · rw [if_pos hc, ih]
        constructor
        · rintro ⟨word, hword, rfl⟩
          exact ⟨c :: word, .cons hc hword, rfl⟩
        · rintro ⟨_, hspells, h⟩
          cases hspells with
          | cons _ hword => exact ⟨_, hword, (List.cons.inj h).2⟩
      · rw [if_neg hc]
        refine ⟨nofun, ?_⟩
        rintro ⟨_, hspells, h⟩
        cases hspells with
        | cons hd _ => exact absurd ((List.cons.inj h).1 ▸ hd) hc

/-- A keyword begins with a letter in any case, which is no white space. -/
theorem Spells.head {kind : MarkerKind} {word : List Char} (h : Spells kind.tag.toList word) :
    ∃ c rest, word = c :: rest ∧ isBlank c = false := by
  have hletters : (['T', 'F', 'H', 'N'].all fun letter =>
      (spellings letter).all fun c => isBlank c = false) = true := by
    decide
  obtain ⟨letter, tag, htag, hletter⟩ :
      ∃ letter tag, kind.tag.toList = letter :: tag ∧ letter ∈ ['T', 'F', 'H', 'N'] := by
    cases kind
    · exact ⟨'T', _, rfl, by decide⟩
    · exact ⟨'F', _, rfl, by decide⟩
    · exact ⟨'H', _, rfl, by decide⟩
    · exact ⟨'N', _, rfl, by decide⟩
  rw [htag] at h
  cases h with
  | cons hc _ =>
    have hblank := List.all_eq_true.mp hletters letter hletter
    exact ⟨_, _, rfl, List.all_iff_forall_prop.mp hblank _ hc⟩

/-- Where a form stands: behind what, with what between its opener and its keyword, how the keyword
is spelled, and in front of what. -/
structure Stands (form : MarkerForm) (before gap word after line : List Char) : Prop where
  line_eq : line = before ++ (form.opener.toList ++ (gap ++ (word ++ after)))
  blank : ∀ c ∈ gap, isBlank c = true
  spelled : Spells form.keyword.tag.toList word

theorem afterKeyword?_eq_some_iff :
    form.afterKeyword? text = some after ↔ ∃ gap word, form.Stands [] gap word after text := by
  unfold afterKeyword?
  constructor
  · intro h
    obtain ⟨rest, hrest, hspelled⟩ := Option.bind_eq_some_iff.mp h
    obtain ⟨opened, hopened, rfl⟩ := Option.map_eq_some_iff.mp hrest
    obtain ⟨word, hword, heq⟩ := afterSpelling?_eq_some_iff.mp hspelled
    refine ⟨opened.takeWhile isBlank, word, ?_, fun c hc => List.mem_takeWhile_imp hc, hword⟩
    rw [afterStart?_eq_some_iff.mp hopened, ← heq]
    show form.opener.toList ++ opened = _
    rw [trimStart, List.takeWhile_append_dropWhile]
    rfl
  · rintro ⟨gap, word, hline, hblank, hword⟩
    obtain ⟨c, rest, rfl, hc⟩ := hword.head
    have hopened : afterStart? form.opener.toList text = some (gap ++ (c :: rest ++ after)) :=
      afterStart?_eq_some_iff.mpr hline
    rw [hopened, Option.map_some, Option.bind_some, List.cons_append,
      trimStart_append hblank hc]
    exact afterSpelling?_eq_some_iff.mpr ⟨c :: rest, hword, rfl⟩

theorem usableAfter?_eq_some_iff :
    form.usableAfter? text = some after ↔
      (∃ gap word, form.Stands [] gap word after text) ∧ form.IsUsable after := by
  unfold usableAfter?
  rw [Option.filter_eq_some_iff, afterKeyword?_eq_some_iff, taken?_isSome_iff]

/-- A form stands behind the part of a line with which it does not begin. -/
theorem stands_append {before gap word : List Char} :
    form.Stands before gap word after (before ++ text) ↔ form.Stands [] gap word after text := by
  constructor
  · exact fun h => ⟨List.append_cancel_left h.line_eq, h.blank, h.spelled⟩
  · exact fun h => ⟨congrArg (before ++ ·) h.line_eq, h.blank, h.spelled⟩

/-- Whether a form stands somewhere on a line, with something to take behind it. -/
def StandsOn (form : MarkerForm) (line : List Char) : Prop :=
  ∃ before gap word after, form.Stands before gap word after line ∧ form.IsUsable after

/-- Whether this follows the keyword where a form stands first on a line with something to take. -/
def IsLeftmost (form : MarkerForm) (after line : List Char) : Prop :=
  ∃ before gap word, form.Stands before gap word after line ∧ form.IsUsable after ∧
    ∀ before' gap' word' after', form.Stands before' gap' word' after' line →
      form.IsUsable after' → before.length ≤ before'.length

/-- The first result along the ends of a text is the one farthest to the left. -/
theorem leftmost_of_findSome?_tails {β : Type} {f : List Char → Option β} {found : β}
    (h : line.tails.findSome? f = some found) :
    ∃ before text, line = before ++ text ∧ f text = some found ∧
      ∀ before' text', line = before' ++ text' → (f text').isSome →
        before.length ≤ before'.length := by
  induction line with
  | nil => exact ⟨[], [], rfl, by simpa using h, fun _ _ _ _ => Nat.zero_le _⟩
  | cons c rest ih =>
    rw [List.tails_cons, List.findSome?_cons] at h
    cases hfirst : f (c :: rest) with
    | some first =>
      rw [hfirst] at h
      exact ⟨[], c :: rest, rfl, hfirst.trans h, fun _ _ _ _ => Nat.zero_le _⟩
    | none =>
      rw [hfirst] at h
      obtain ⟨before, text, rfl, hfound, hleast⟩ := ih h
      refine ⟨c :: before, text, rfl, hfound, fun before' text' heq hsome => ?_⟩
      cases before' with
      | nil =>
        rw [List.nil_append] at heq
        rw [← heq, hfirst] at hsome
        cases hsome
      | cons d before' => exact Nat.succ_le_succ (hleast before' text' (List.cons.inj heq).2 hsome)

/-- **Where a form is found on a line** is the first place where it stands. -/
theorem isLeftmost_of_standsOn? (h : form.standsOn? line = some after) :
    form.IsLeftmost after line := by
  obtain ⟨before, text, rfl, hfound, hleast⟩ := leftmost_of_findSome?_tails h
  obtain ⟨⟨gap, word, hstands⟩, husable⟩ := usableAfter?_eq_some_iff.mp hfound
  refine ⟨before, gap, word, stands_append.mpr hstands, husable, ?_⟩
  intro before' gap' word' after' hstands' husable'
  refine hleast before' _ hstands'.line_eq (Option.isSome_iff_exists.mpr ⟨after', ?_⟩)
  exact usableAfter?_eq_some_iff.mpr
    ⟨⟨gap', word', rfl, hstands'.blank, hstands'.spelled⟩, husable'⟩

/-- **A form stands on a line** if it is found there. -/
theorem standsOn?_isSome_iff : (form.standsOn? line).isSome ↔ form.StandsOn line := by
  constructor
  · intro h
    obtain ⟨after, hafter⟩ := Option.isSome_iff_exists.mp h
    obtain ⟨before, gap, word, hstands, husable, -⟩ := isLeftmost_of_standsOn? hafter
    exact ⟨before, gap, word, after, hstands, husable⟩
  · rintro ⟨before, gap, word, after, ⟨rfl, hblank, hword⟩, husable⟩
    unfold standsOn?
    rw [List.findSome?_isSome_iff]
    refine ⟨_, (List.mem_tails ..).mpr (List.suffix_append before _),
      Option.isSome_iff_exists.mpr ⟨after, ?_⟩⟩
    exact usableAfter?_eq_some_iff.mpr ⟨⟨gap, word, rfl, hblank, hword⟩, husable⟩

/-! ## Where the text is -/

theorem taken?_of_standsOn? (h : form.standsOn? line = some after) :
    (form.taken? after).isSome := by
  obtain ⟨before, gap, word, -, husable, -⟩ := isLeftmost_of_standsOn? h
  exact taken?_isSome_iff.mpr husable

theorem taken?_isPrefix (h : form.taken? after = some text) : text <+: after := by
  cases after with
  | nil => cases h
  | cons c rest =>
    rw [taken?] at h
    split at h
    · obtain ⟨before, hbefore, rfl⟩ := Option.map_eq_some_iff.mp h
      exact (List.prefix_cons_inj c).mpr (beforeCloser?_isPrefix hbefore)
    · cases h
      exact List.prefix_rfl

/-- The text is a part of the line. -/
theorem textBehind?_isInfix (hafter : form.standsOn? line = some after)
    (h : form.textBehind? after = some text) : text <:+: line := by
  obtain ⟨before, gap, word, hstands, -, -⟩ := isLeftmost_of_standsOn? hafter
  obtain ⟨start, hstart, htaken⟩ := List.exists_of_findSome?_eq_some h
  have hbehind : after <:+ line := by
    rw [hstands.line_eq, ← List.append_assoc, ← List.append_assoc, ← List.append_assoc]
    exact List.suffix_append _ _
  calc
    text <:+: start := (taken?_isPrefix htaken).isInfix
    start <:+: after := (beginnings_suffix hstart).isInfix
    after <:+: line := hbehind.isInfix

end MarkerForm

namespace Marker

variable {line : List Char} {form : MarkerForm} {after : List Char}

/-- A form is found on a line just if one of them stands there. -/
theorem formOn?_isSome_iff :
    (formOn? line).isSome ↔ ∃ form ∈ MarkerForm.all, form.StandsOn line := by
  unfold formOn?
  rw [List.findSome?_isSome_iff]
  simp only [Option.isSome_map, MarkerForm.standsOn?_isSome_iff]

/-- **The form that is found on a line** is the first of all that stands there. -/
theorem formOn?_eq_some_iff :
    formOn? line = some (form, after) ↔ form.standsOn? line = some after ∧
      ∃ earlier later, MarkerForm.all = earlier ++ form :: later ∧
        ∀ other ∈ earlier, ¬other.StandsOn line := by
  unfold formOn?
  rw [List.findSome?_eq_some_iff]
  have hnone (other : MarkerForm) : ¬other.StandsOn line ↔
      (other.standsOn? line).map (fun after => (other, after)) = none := by
    rw [← MarkerForm.standsOn?_isSome_iff, Option.map_eq_none_iff, Option.not_isSome_iff_eq_none]
  simp only [hnone]
  constructor
  · rintro ⟨earlier, other, later, hall, hfound, hfirst⟩
    obtain ⟨_, hafter, ⟨⟩⟩ := Option.map_eq_some_iff.mp hfound
    exact ⟨hafter, earlier, later, hall, hfirst⟩
  · rintro ⟨hafter, earlier, later, hall, hfirst⟩
    exact ⟨earlier, form, later, hall, Option.map_eq_some_iff.mpr ⟨after, hafter, rfl⟩, hfirst⟩

/-- What the marker of a line is made of. -/
theorem plainly?_eq_some_iff {number : Nat} {marker : Marker} :
    plainly? number line = some marker ↔ ∃ form after text, formOn? line = some (form, after) ∧
      form.textBehind? after = some text ∧
      marker = ⟨MarkerKind.ofLine line, String.ofList (trim text), number,
        String.ofList (trim line)⟩ := by
  unfold plainly?
  simp only [Option.bind_eq_bind, Option.bind_eq_some_iff, Prod.exists, Option.pure_def,
    Option.some.injEq]
  constructor
  · rintro ⟨form, after, hform, text, htext, rfl⟩
    exact ⟨form, after, text, hform, htext, rfl⟩
  · rintro ⟨form, after, text, hform, htext, rfl⟩
    exact ⟨form, after, hform, text, htext, rfl⟩

/-- **A line has a marker** just if one of the forms stands on it. -/
theorem plainly?_isSome_iff (number : Nat) (line : List Char) :
    (plainly? number line).isSome ↔ ∃ form ∈ MarkerForm.all, form.StandsOn line := by
  rw [← formOn?_isSome_iff]
  constructor
  · intro h
    obtain ⟨marker, hmarker⟩ := Option.isSome_iff_exists.mp h
    obtain ⟨form, after, text, hform, -⟩ := plainly?_eq_some_iff.mp hmarker
    exact Option.isSome_iff_exists.mpr ⟨_, hform⟩
  · intro h
    obtain ⟨⟨form, after⟩, hform⟩ := Option.isSome_iff_exists.mp h
    have husable := MarkerForm.taken?_of_standsOn? (formOn?_eq_some_iff.mp hform).1
    rw [← MarkerForm.textBehind?_isSome] at husable
    obtain ⟨text, htext⟩ := Option.isSome_iff_exists.mp husable
    exact Option.isSome_iff_exists.mpr
      ⟨_, plainly?_eq_some_iff.mpr ⟨form, after, text, hform, htext, rfl⟩⟩

end Marker

end FileLore
