import FileLore.Proofs.Source.MarkerScan

/-!
# The kind of a marker and its keyword

The kind of a marker is that of the keyword of highest rank that stands in capitals
on the line in upper case, so it ranks no lower than the keyword of the form that
gave the marker, as long as this is there in upper case. Only HACK can be missing:
its last letter may be the sign for kelvin, which counts as a K in either case and
has no other upper case than itself (`scan_kind`).
-/

namespace FileLore

open Text

namespace MarkerKind

variable {kind : MarkerKind} {line word : List Char}

/-- The rank of a kind. -/
def rank : MarkerKind → Nat
  | todo => 0
  | note => 1
  | hack => 2
  | fixme => 3

/-- **The kind of a line ranks no lower than any keyword on it.** -/
theorem rank_le_ofLine (h : occurs kind.tag.toList (upperText line) = true) :
    kind.rank ≤ (ofLine line).rank := by
  have hfind : ofLine line =
      (byRank.find? fun kind => occurs kind.tag.toList (upperText line)).getD todo := rfl
  rw [hfind, byRank, List.find?_cons, List.find?_cons, List.find?_cons, List.find?_nil]
  cases kind with
  | todo => exact Nat.zero_le _
  | fixme =>
    rw [h]
    exact Nat.le_refl _
  | hack =>
    rw [h]
    cases occurs fixme.tag.toList (upperText line) with
    | true => exact Nat.le_succ 2
    | false => exact Nat.le_refl 2
  | note =>
    rw [h]
    cases occurs fixme.tag.toList (upperText line) with
    | true => exact Nat.le_add_left 1 2
    | false =>
      cases occurs hack.tag.toList (upperText line) with
      | true => exact Nat.le_succ 1
      | false => exact Nat.le_refl 1

theorem upperText_isInfix {part text : List Char} (h : part <:+: text) :
    upperText part <:+: upperText text := by
  obtain ⟨before, after, rfl⟩ := h
  refine ⟨upperText before, upperText after, ?_⟩
  unfold upperText
  rw [List.flatMap_append, List.flatMap_append]

/-- A keyword in ASCII is there in upper case. -/
theorem upperText_of_spells {tag : List Char} (htag : ∀ letter ∈ tag, IsCapital letter)
    (h : MarkerForm.Spells tag word) (hascii : ∀ c ∈ word, c.toNat < 0x80) :
    upperText word = tag := by
  induction h with
  | nil => rfl
  | @cons letter c tag word hc _ ih =>
    have hupper : upper c = [letter] :=
      upper_of_mem_spellings (htag letter List.mem_cons_self) hc (hascii c List.mem_cons_self)
    have hrest : upperText word = tag := ih
      (fun other hother => htag other (List.mem_cons_of_mem _ hother))
      fun other hother => hascii other (List.mem_cons_of_mem _ hother)
    show upper c ++ upperText word = letter :: tag
    rw [hupper, hrest]
    rfl

theorem ascii_of_mem_spellings {letter c : Char} (hletter : IsCapital letter) (hK : letter ≠ 'K')
    (hS : letter ≠ 'S') (h : c ∈ spellings letter) : c.toNat < 0x80 := by
  have hsmall := small_toNat hletter
  rcases mem_spellings_iff.mp h with rfl | rfl | ⟨heq, -⟩ | ⟨heq, -⟩
  · omega
  · omega
  · exact absurd heq hK
  · exact absurd heq hS

theorem ascii_of_spells {tag : List Char}
    (htag : ∀ letter ∈ tag, IsCapital letter ∧ letter ≠ 'K' ∧ letter ≠ 'S')
    (h : MarkerForm.Spells tag word) : ∀ c ∈ word, c.toNat < 0x80 := by
  induction h with
  | nil => exact nofun
  | @cons letter c tag word hc _ ih =>
    obtain ⟨hletter, hK, hS⟩ := htag letter List.mem_cons_self
    intro d hd
    rcases List.mem_cons.mp hd with rfl | hd
    · exact ascii_of_mem_spellings hletter hK hS hc
    · exact ih (fun other hother => htag other (List.mem_cons_of_mem _ hother)) d hd

theorem spells_concat {tag : List Char} {letter : Char}
    (h : MarkerForm.Spells (tag ++ [letter]) word) :
    ∃ first last, word = first ++ [last] ∧ MarkerForm.Spells tag first ∧
      last ∈ spellings letter := by
  induction tag generalizing word with
  | nil =>
    cases h with
    | cons hlast hnil =>
      cases hnil
      exact ⟨[], _, rfl, .nil, hlast⟩
  | cons other tag ih =>
    cases h with
    | cons hc hrest =>
      obtain ⟨first, last, rfl, hfirst, hlast⟩ := ih hrest
      exact ⟨_ :: first, last, rfl, .cons hc hfirst, hlast⟩

/-- A keyword is in ASCII, unless it is HACK with the sign for kelvin. -/
theorem spells_cases (h : MarkerForm.Spells kind.tag.toList word) :
    (∀ c ∈ word, c.toNat < 0x80) ∨ kind = hack ∧ ∃ first, word = first ++ [kelvin] := by
  cases kind with
  | todo => exact Or.inl (ascii_of_spells (List.all_iff_forall_prop.mp (by decide)) h)
  | fixme => exact Or.inl (ascii_of_spells (List.all_iff_forall_prop.mp (by decide)) h)
  | note => exact Or.inl (ascii_of_spells (List.all_iff_forall_prop.mp (by decide)) h)
  | hack =>
    have htag : hack.tag.toList = ['H', 'A', 'C'] ++ ['K'] := rfl
    rw [htag] at h
    obtain ⟨first, last, rfl, hfirst, hlast⟩ := spells_concat h
    have hascii := ascii_of_spells (List.all_iff_forall_prop.mp (by decide)) hfirst
    by_cases hkelvin : last = kelvin
    · exact Or.inr ⟨rfl, first, by rw [hkelvin]⟩
    · left
      intro c hc
      rcases List.mem_append.mp hc with hc | hc
      · exact hascii c hc
      · rw [List.mem_singleton.mp hc]
        rcases mem_spellings_iff.mp hlast with rfl | rfl | ⟨-, heq⟩ | ⟨heq, -⟩
        · decide
        · decide
        · exact absurd heq hkelvin
        · exact absurd heq (by decide)

end MarkerKind

/-- **The kind of a marker ranks no lower than its keyword**, unless the keyword is HACK with the
sign for kelvin for its last letter; then the kind may be NOTE or TODO instead. -/
theorem Marker.scan_kind (source : String) : ∀ marker ∈ scan source,
    1 ≤ marker.line ∧ ∃ line, (lines source.toList)[marker.line - 1]? = some line ∧
      ∃ form after, formOn? line = some (form, after) ∧
        (form.keyword.rank ≤ marker.kind.rank ∨
          form.keyword = .hack ∧ (marker.kind = .note ∨ marker.kind = .todo) ∧
            ∃ before gap first, form.Stands before gap (first ++ [kelvin]) after line) := by
  intro marker hmarker
  obtain ⟨hfirst, line, hline, hplainly⟩ := mem_scan hmarker
  obtain ⟨form, after, text, hform, -, heq⟩ := plainly?_eq_some_iff.mp hplainly
  have hkind : marker.kind = MarkerKind.ofLine line := by rw [heq]
  refine ⟨hfirst, line, hline, form, after, hform, ?_⟩
  obtain ⟨before, gap, word, hstands, -, -⟩ :=
    MarkerForm.isLeftmost_of_standsOn? (formOn?_eq_some_iff.mp hform).1
  rw [hkind]
  by_cases hrank : form.keyword.rank ≤ (MarkerKind.ofLine line).rank
  · exact Or.inl hrank
  · rcases MarkerKind.spells_cases hstands.spelled with hascii | ⟨hhack, first, rfl⟩
    · refine absurd (MarkerKind.rank_le_ofLine ?_) hrank
      have hupper : upperText word = form.keyword.tag.toList := MarkerKind.upperText_of_spells
        (MarkerForm.isCapital_of_mem_tag form.keyword) hstands.spelled hascii
      have hword : word <:+: line :=
        ⟨before ++ (form.opener.toList ++ gap), after, by simp [hstands.line_eq]⟩
      rw [occurs_iff, ← hupper]
      exact MarkerKind.upperText_isInfix hword
    · refine Or.inr ⟨hhack, ?_, before, gap, first, hstands⟩
      rw [hhack] at hrank
      cases hline : MarkerKind.ofLine line with
      | todo => exact Or.inr rfl
      | note => exact Or.inl rfl
      | hack => exact absurd (by rw [hline]) hrank
      | fixme => exact absurd (by rw [hline]; decide) hrank

/-- With the sign for kelvin a comment that is to be a HACK is a TODO. -/
theorem Marker.scan_kind_kelvin :
    let source := "# HAC\u212a drop this"
    let form : MarkerForm := ⟨"#", .hack, false⟩
    let marker : Marker := ⟨.todo, "drop this", 1, "# HAC\u212a drop this"⟩
    marker ∈ scan source ∧ formOn? source.toList = some (form, " drop this".toList) ∧
      marker.kind.rank < form.keyword.rank ∧
        ∃ before gap first,
          form.Stands before gap (first ++ [kelvin]) " drop this".toList source.toList := by
  intro source form marker
  have hmarker : marker ∈ scan source := by decide +kernel
  have hform : formOn? source.toList = some (form, " drop this".toList) := by decide +kernel
  have hrank : marker.kind.rank < form.keyword.rank := by decide
  obtain ⟨-, line, hline, other, after, hother, hkind⟩ := scan_kind source marker hmarker
  have honly : (lines source.toList)[1 - 1]? = some source.toList := by decide +kernel
  obtain rfl : source.toList = line := Option.some.inj (honly.symm.trans hline)
  obtain ⟨rfl, rfl⟩ := Prod.mk.inj (Option.some.inj (hform.symm.trans hother))
  exact ⟨hmarker, hform, hrank, (hkind.resolve_left (Nat.not_le.mpr hrank)).2.2⟩

end FileLore
