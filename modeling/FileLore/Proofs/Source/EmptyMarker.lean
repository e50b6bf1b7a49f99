import FileLore.Proofs.Source.MarkerScan

/-!
# Markers that tell nothing

Behind the colon and the white space after its keyword a marker tells something or
not. If it does, that is its text, which is then not empty. If it does not, the
marker is there all the same: white space or, failing that, the keyword's own colon
has been given back to make a text, and what is left of this when it is trimmed is
nothing, or that colon (`scan_text`).
-/

namespace FileLore

open Text

namespace MarkerForm

variable {form : MarkerForm} {after gap body text : List Char}

/-- What follows a keyword and its colon, if there is one. -/
def behindColon : List Char → List Char
  | ':' :: rest => rest
  | after => after

/-- What follows a keyword, its colon and all white space. -/
def told (after : List Char) : List Char :=
  trimStart (behindColon after)

theorem behindColon_of_head?_ne (h : after.head? ≠ some ':') : behindColon after = after := by
  unfold behindColon
  split
  · exact absurd rfl h
  · rfl

/-! ## Where something is told -/

theorem behindBlanks_head (text : List Char) :
    ∃ others, behindBlanks text = trimStart text :: others := by
  induction text with
  | nil => exact ⟨[], rfl⟩
  | cons c rest ih =>
    rw [behindBlanks, trimStart, List.dropWhile_cons]
    split
    · obtain ⟨others, heq⟩ := ih
      exact ⟨others ++ [c :: rest], by rw [heq]; rfl⟩
    · exact ⟨[], rfl⟩

/-- **What is told is the text.** -/
theorem textBehind?_of_told (h : form.taken? (told after) = some text) :
    form.textBehind? after = some text := by
  have hfirst : ∃ others, beginnings after = told after :: others := by
    by_cases hcolon : after.head? = some ':'
    · obtain ⟨rest, rfl⟩ := List.head?_eq_some_iff.mp hcolon
      obtain ⟨others, heq⟩ := behindBlanks_head rest
      exact ⟨others ++ [':' :: rest], by rw [beginnings, heq]; rfl⟩
    · rw [beginnings_of_head?_ne hcolon, told, behindColon_of_head?_ne hcolon]
      exact behindBlanks_head after
  obtain ⟨others, heq⟩ := hfirst
  unfold textBehind?
  rw [heq, List.findSome?_cons, h]

/-- What is told is not empty when it is trimmed. -/
theorem trim_ne_nil_of_told (h : form.taken? (told after) = some text) : trim text ≠ [] := by
  have htight : IsTight (told after) := isTight_trimStart _
  cases htold : told after with
  | nil =>
    rw [htold] at h
    cases h
  | cons c rest =>
    rw [htold] at h htight
    have hmem : c ∈ text := by
      rw [taken?] at h
      split at h
      · obtain ⟨before, -, rfl⟩ := Option.map_eq_some_iff.mp h
        exact List.mem_cons_self
      · cases h
        exact List.mem_cons_self
    exact trim_ne_nil (htight c rfl) hmem

/-! ## Where nothing is told -/

theorem beforeCloser?_append (hgap : ∀ c ∈ gap, isBlank c = true) (body : List Char) :
    beforeCloser? (gap ++ body) = (beforeCloser? body).map (gap ++ ·) := by
  induction gap with
  | nil =>
    cases hbefore : beforeCloser? body with
    | none => exact hbefore
    | some before => exact hbefore
  | cons c gap ih =>
    have hstar : '*' ≠ c := by
      rintro rfl
      exact absurd (hgap '*' List.mem_cons_self) (by decide)
    have hcloser : ¬closer.isPrefixOf (c :: (gap ++ body)) = true := by
      simp [closer, List.isPrefixOf, hstar]
    rw [List.cons_append, beforeCloser?, if_neg hcloser,
      ih fun d hd => hgap d (List.mem_cons_of_mem _ hd), Option.map_map]
    rfl

/-- Whether a text that is taken in front of this could end there. -/
def endsBefore (form : MarkerForm) (body : List Char) : Bool :=
  !form.closed || closer.isPrefixOf body

/-- In front of what tells nothing, what is taken ends there. -/
theorem taken?_cons_append (hbody : form.taken? body = none) (hgap : ∀ c ∈ gap, isBlank c = true)
    (c : Char) :
    form.taken? (c :: (gap ++ body)) = if form.endsBefore body then some (c :: gap) else none := by
  unfold endsBefore
  rw [taken?]
  by_cases hclosed : form.closed = true
  · rw [if_pos hclosed, beforeCloser?_append hgap, Option.map_map, hclosed, Bool.not_true,
      Bool.false_or]
    cases body with
    | nil => rfl
    | cons d rest =>
      rw [taken?, if_pos hclosed, Option.map_eq_none_iff] at hbody
      rw [beforeCloser?, hbody]
      split
      · exact congrArg (fun gap => some (c :: gap)) (List.append_nil gap)
      · rfl
  · have hnil : body = [] := by
      cases body with
      | nil => rfl
      | cons d rest =>
        rw [taken?, if_neg hclosed] at hbody
        cases hbody
    rw [if_neg hclosed, eq_false_of_ne_true hclosed, hnil, List.append_nil]
    rfl

/-- In front of what tells nothing, the last white space is taken. -/
theorem findSome?_behindBlanks_append (hbody : form.taken? body = none) (htight : IsTight body)
    (hgap : ∀ c ∈ gap, isBlank c = true) :
    (behindBlanks (gap ++ body)).findSome? form.taken? =
      if form.endsBefore body then gap.getLast?.map ([·]) else none := by
  induction gap with
  | nil =>
    have hself : behindBlanks body = [body] := by
      cases body with
      | nil => rfl
      | cons c rest =>
        have hc : isBlank c = false := htight c rfl
        rw [behindBlanks, hc]
        rfl
    rw [List.nil_append, hself, List.findSome?_singleton, hbody]
    split <;> rfl
  | cons c gap ih =>
    have hrest : ∀ d ∈ gap, isBlank d = true := fun d hd => hgap d (List.mem_cons_of_mem _ hd)
    rw [List.cons_append, behindBlanks, if_pos (hgap c List.mem_cons_self), List.findSome?_append,
      List.findSome?_singleton, ih hrest, taken?_cons_append hbody hrest, List.getLast?_cons]
    split
    · cases hlast : gap.getLast? with
      | none => rw [List.getLast?_eq_none_iff.mp hlast]; rfl
      | some d => rfl
    · rfl

theorem trim_singleton {c : Char} (hc : isBlank c = true) : trim [c] = [] := by
  simp [trim, trimStart, trimEnd, hc]

/-- **Where nothing is told** the text is white space, or the keyword's own colon if there is
none. -/
theorem textBehind?_of_not_told (htold : form.taken? (told after) = none)
    (h : form.textBehind? after = some text) :
    String.ofList (trim text) = if after = ':' :: told after then ":" else "" := by
  obtain ⟨gap, hgap, hbehind⟩ :
      ∃ gap, (∀ c ∈ gap, isBlank c = true) ∧ behindColon after = gap ++ told after :=
    ⟨(behindColon after).takeWhile isBlank, fun c hc => List.mem_takeWhile_imp hc,
      List.takeWhile_append_dropWhile.symm⟩
  have hblanks := findSome?_behindBlanks_append htold (isTight_trimStart _) hgap
  have hwhite {found : List Char}
      (hfound : (behindBlanks (gap ++ told after)).findSome? form.taken? = some found) :
      String.ofList (trim found) = "" := by
    rw [hblanks] at hfound
    split at hfound
    · obtain ⟨c, hc, rfl⟩ := Option.map_eq_some_iff.mp hfound
      rw [trim_singleton (hgap c (List.mem_of_getLast? hc))]
    · cases hfound
  unfold textBehind? at h
  by_cases hcolon : after.head? = some ':'
  · obtain ⟨rest, rfl⟩ := List.head?_eq_some_iff.mp hcolon
    have hrest : rest = gap ++ told (':' :: rest) := hbehind
    have hself : form.taken? (':' :: rest) =
        if form.endsBefore (told (':' :: rest)) then some (':' :: gap) else none :=
      (congrArg (fun rest => form.taken? (':' :: rest)) hrest).trans
        (taken?_cons_append htold hgap ':')
    rw [beginnings, List.findSome?_append, List.findSome?_singleton,
      congrArg behindBlanks hrest] at h
    by_cases hnil : gap = []
    · rw [hnil, List.nil_append] at hrest
      rw [if_pos (congrArg (List.cons ':') hrest)]
      rw [hblanks, hself, hnil] at h
      split at h
      · cases h
        decide
      · cases h
    · have hne : ':' :: rest ≠ ':' :: told (':' :: rest) := by
        intro heq
        have hsame : gap ++ told (':' :: rest) = told (':' :: rest) :=
          hrest.symm.trans (List.cons.inj heq).2
        exact hnil (List.append_left_eq_self.mp hsame)
      rw [if_neg hne]
      cases hfound : (behindBlanks (gap ++ told (':' :: rest))).findSome? form.taken? with
      | some found =>
        rw [hfound, Option.some_or] at h
        cases h
        exact hwhite hfound
      | none =>
        -- With white space to take, the colon is not tried.
        rw [hfound, Option.none_or, hself] at h
        rw [hblanks] at hfound
        split at h
        · next hends =>
          rw [if_pos hends, Option.map_eq_none_iff, List.getLast?_eq_none_iff] at hfound
          exact absurd hfound hnil
        · cases h
  · rw [behindColon_of_head?_ne hcolon] at hbehind
    have hne : after ≠ ':' :: told after := fun heq => hcolon (by rw [heq]; rfl)
    rw [beginnings_of_head?_ne hcolon, congrArg behindBlanks hbehind] at h
    rw [if_neg hne]
    exact hwhite h

end MarkerForm

/-- **What the text of a marker is.** Where its form stands on its line, what is told behind the
colon and the white space after the keyword is the text, trimmed and not empty. If nothing can be
taken there, the text is empty, or it is the keyword's own colon with nothing behind it. -/
theorem Marker.scan_text (source : String) : ∀ marker ∈ scan source,
    1 ≤ marker.line ∧ ∃ line, (lines source.toList)[marker.line - 1]? = some line ∧
      ∃ form after, formOn? line = some (form, after) ∧
        match form.taken? (MarkerForm.told after) with
        | some text => marker.text = String.ofList (trim text) ∧ marker.text ≠ ""
        | none => marker.text = if after = ':' :: MarkerForm.told after then ":" else "" := by
  intro marker hmarker
  obtain ⟨hfirst, line, hline, hplainly⟩ := mem_scan hmarker
  obtain ⟨form, after, text, hform, htext, heq⟩ := plainly?_eq_some_iff.mp hplainly
  have hmarkerText : marker.text = String.ofList (trim text) := by rw [heq]
  refine ⟨hfirst, line, hline, form, after, hform, ?_⟩
  split
  · next taken htold =>
    rw [MarkerForm.textBehind?_of_told htold] at htext
    cases htext
    refine ⟨hmarkerText, fun hempty => MarkerForm.trim_ne_nil_of_told htold ?_⟩
    rw [hmarkerText] at hempty
    exact String.ofList_inj.mp hempty
  · next htold =>
    rw [hmarkerText]
    exact MarkerForm.textBehind?_of_not_told htold htext

/-- Two comments with nothing behind their keywords have markers all the same, one with the colon
for its text and one with none; nothing can be taken behind the keyword on the line of the latter. -/
theorem Marker.scan_text_bare :
    let source := "# TODO:\n// FIXME: \n"
    scan source = [⟨.todo, ":", 1, "# TODO:"⟩, ⟨.fixme, "", 2, "// FIXME:"⟩] ∧
      ∃ form after, formOn? "// FIXME: ".toList = some (form, after) ∧
        form.taken? (MarkerForm.told after) = none := by
  intro source
  have hscan : scan source = [⟨.todo, ":", 1, "# TODO:"⟩, ⟨.fixme, "", 2, "// FIXME:"⟩] := by
    decide +kernel
  have hmarker : ⟨.fixme, "", 2, "// FIXME:"⟩ ∈ scan source := by
    rw [hscan]
    exact List.mem_cons_of_mem _ List.mem_cons_self
  obtain ⟨-, line, hline, form, after, hform, htext⟩ := scan_text source _ hmarker
  have hsecond : (lines source.toList)[2 - 1]? = some "// FIXME: ".toList := by decide +kernel
  obtain rfl : "// FIXME: ".toList = line := Option.some.inj (hsecond.symm.trans hline)
  refine ⟨hscan, form, after, hform, ?_⟩
  split at htext
  · exact absurd rfl htext.2
  · next htold => exact htold

end FileLore
