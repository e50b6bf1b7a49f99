import FileLore.Proofs.Pattern.Taken

/-!
# Fixed words

Patterns of interest begin with one of a few fixed words, and are refused wherever
none of these begins. `IsAbsent` says that a word begins nowhere in a text; it is
told part by part where the parts lie between characters that the word does not
hold.

A choice between words of which none begins with another one takes whichever
stands at a text (`takes_choice`).
-/

namespace FileLore.Pattern

variable {pattern : Pattern} {parts : List Pattern} {text more rest : List Char}

/-! ## Where a word begins -/

variable {word : List Char} {d : Char}

/-- Whether the word begins at no place of `text`, which `rest` follows. -/
def IsAbsent (word text rest : List Char) : Prop :=
  ∀ after, after ≠ [] → after <:+ text → ¬word <+: after ++ rest

theorem isAbsent_nil (word rest : List Char) : IsAbsent word [] rest :=
  fun _ hne hsuffix => absurd (List.suffix_nil.mp hsuffix) hne

theorem isAbsent_cons {c : Char} :
    IsAbsent word (c :: text) rest ↔ ¬word <+: c :: (text ++ rest) ∧ IsAbsent word text rest := by
  constructor
  · intro h
    exact ⟨h (c :: text) (List.cons_ne_nil c text) List.suffix_rfl, fun after hne hsuffix =>
      h after hne (hsuffix.trans (List.suffix_cons c text))⟩
  · rintro ⟨hhere, hlater⟩ after hne hsuffix
    rcases List.suffix_cons_iff.mp hsuffix with rfl | hsuffix
    · exact hhere
    · exact hlater after hne hsuffix

/-- A word does not begin at a character that it does not hold. -/
theorem isAbsent_cons_of_notMem (hne : word ≠ []) (hd : d ∉ word) :
    IsAbsent word (d :: text) rest ↔ IsAbsent word text rest := by
  rw [isAbsent_cons]
  refine and_iff_right fun hbegin => ?_
  obtain ⟨c, more, rfl⟩ := List.exists_cons_of_ne_nil hne
  obtain rfl := (List.cons_prefix_cons.mp hbegin).1
  exact hd List.mem_cons_self

/-- A word that does not occur in a text does not begin there either, if the text ends before a
character that the word does not hold. -/
theorem isAbsent_of_notInfix (h : ¬word <:+: text) (hd : d ∉ word) :
    IsAbsent word text (d :: rest) := by
  rintro after - hsuffix ⟨more, hmore⟩
  rcases List.append_eq_append_iff.mp hmore with ⟨others, hafter, -⟩ | ⟨others, hword, hothers⟩
  · exact h (List.infix_iff_prefix_suffix.mpr ⟨after, ⟨others, hafter.symm⟩, hsuffix⟩)
  · cases others with
    | nil =>
      rw [List.append_nil] at hword
      exact h (hword ▸ hsuffix.isInfix)
    | cons c others =>
      obtain rfl : d = c := (List.cons.inj hothers).1
      exact hd (hword ▸ List.mem_append_right after List.mem_cons_self)

theorem isAbsent_append :
    IsAbsent word (text ++ more) rest ↔
      IsAbsent word text (more ++ rest) ∧ IsAbsent word more rest := by
  induction text with
  | nil => exact ⟨fun h => ⟨isAbsent_nil _ _, h⟩, And.right⟩
  | cons c text ih => rw [List.cons_append, isAbsent_cons, isAbsent_cons, ih, and_assoc,
      List.append_assoc]

/-- **A word is absent from a text if it is absent from its parts**, where a character that the word
does not hold divides them. -/
theorem IsAbsent.append_cons (h : ¬word <:+: text) (hne : word ≠ []) (hd : d ∉ word)
    (hmore : IsAbsent word more rest) : IsAbsent word (text ++ d :: more) rest :=
  isAbsent_append.mpr ⟨isAbsent_of_notInfix h hd, (isAbsent_cons_of_notMem hne hd).mpr hmore⟩

/-- Whether every text that the pattern can be read at begins with one of the words. -/
def BeginsWith (pattern : Pattern) (words : List String) : Prop :=
  ∀ start stop : Progress, pattern.Reads start stop → ∃ word ∈ words, word.toList <+: start.rest

theorem beginsWith_literal (word : String) (parts : List Pattern) :
    (sequence (literal word :: parts)).BeginsWith [word] := by
  intro start stop h
  obtain ⟨mid, hword, -⟩ := reads_sequence_cons.mp h
  exact ⟨word, List.mem_singleton_self word, mid.rest, hword.literal.symm⟩

/-! ## Choices between words -/

variable {words : List String} {word other : String}

/-- Whether no word begins with another one. -/
def PrefixFree (words : List String) : Prop :=
  ∀ word ∈ words, ∀ other ∈ words, word.toList <+: other.toList → word = other

instance (words : List String) : Decidable (PrefixFree words) :=
  inferInstanceAs (Decidable (∀ word ∈ words, ∀ other ∈ words, _ → word = other))

/-- Two words that a text begins with are the same. -/
theorem PrefixFree.eq_of_prefix (h : PrefixFree words) (hword : word ∈ words)
    (hother : other ∈ words) (hbegin : word.toList <+: text) (hother' : other.toList <+: text) :
    word = other := by
  rcases List.prefix_or_prefix_of_prefix hbegin hother' with hbefore | hafter
  · exact h word hword other hother hbefore
  · exact (h other hother word hword hafter).symm

/-- A word is refused where another one stands. -/
theorem PrefixFree.refuses_literal (h : PrefixFree words) (hword : word ∈ words)
    (hother : other ∈ words) (hne : word ≠ other) (rest : List Char) :
    (literal word).Refuses (other.toList ++ rest) :=
  Pattern.refuses_literal fun hbegin =>
    hne (h.eq_of_prefix hword hother hbegin (List.prefix_append _ rest))

theorem Reads.choice {start stop : Progress}
    (h : (Pattern.choice (words.map Pattern.literal)).Reads start stop) :
    ∃ word ∈ words, start.rest = word.toList ++ stop.rest := by
  induction words with
  | nil =>
    obtain ⟨c, rest, -, hc, -⟩ := h
    cases hc
  | cons first words ih =>
    cases words with
    | nil => exact ⟨first, List.mem_singleton_self first, Reads.literal h⟩
    | cons second words =>
      rcases h with hfirst | hlater
      · exact ⟨first, List.mem_cons_self, hfirst.literal⟩
      · obtain ⟨word, hword, hrest⟩ := ih hlater
        exact ⟨word, List.mem_cons_of_mem first hword, hrest⟩

/-- **A choice takes the word that stands at a text.** -/
theorem takes_choice (h : PrefixFree words) (hword : word ∈ words) (rest : List Char) :
    (choice (words.map literal)).Takes word.toList rest [] := by
  induction words with
  | nil => cases hword
  | cons first words ih =>
    cases words with
    | nil =>
      obtain rfl := List.mem_singleton.mp hword
      exact takes_literal word rest
    | cons second words =>
      by_cases heq : first = word
      · subst heq
        exact (takes_literal first rest).either _
      · have hlater : word ∈ second :: words := List.mem_of_ne_of_mem (Ne.symm heq) hword
        have hfree : PrefixFree (second :: words) := fun a ha b hb =>
          h a (List.mem_cons_of_mem first ha) b (List.mem_cons_of_mem first hb)
        exact (ih hfree hlater).either_of_refuses
          (h.refuses_literal List.mem_cons_self hword heq rest)

/-- A choice between words of which none begins with a character of a kind. -/
theorem followsRun_choice {accepts : Char → Bool}
    (h : ∀ word ∈ words, word.toList.head?.map accepts = some false) :
    FollowsRun accepts (choice (words.map literal)) := by
  intro start stop hread
  obtain ⟨word, hword, hrest⟩ := hread.choice
  obtain ⟨c, hc, haccepts⟩ := Option.map_eq_some_iff.mp (h word hword)
  obtain ⟨more, hmore⟩ := List.head?_eq_some_iff.mp hc
  rw [hrest, hmore]
  exact endsRun_cons.mpr haccepts

theorem beginsWith_choice (words : List String) (parts : List Pattern) :
    (sequence (choice (words.map literal) :: parts)).BeginsWith words := by
  intro start stop h
  obtain ⟨mid, hchoice, -⟩ := reads_sequence_cons.mp h
  obtain ⟨word, hword, hrest⟩ := hchoice.choice
  exact ⟨word, hword, mid.rest, hrest.symm⟩

end FileLore.Pattern
