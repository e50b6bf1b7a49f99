import FileLore.Proofs.Pattern.Words

/-!
# Scanning piece by piece

A scan of a text can be told from its front: a character at which the pattern is
refused is passed over, a stretch that the pattern takes is a match, and the scan
goes on behind it (`Finds`). What is told so is what the search finds
(`Finds.groups_allMatches`).

A pattern that begins with one of a few fixed words passes over what holds none
of them (`Finds.append`).
-/

namespace FileLore.Pattern

variable {pattern : Pattern} {text more rest source : List Char}
  {found : List (Nat × List Char)} {all : List (List (Nat × List Char))}

/-! ## What a scan finds -/

/-- Whether a scan of the text by the pattern finds matches that remember these texts. -/
inductive Finds (pattern : Pattern) : List Char → List (List (Nat × List Char)) → Prop where
  | done : Finds pattern [] []
  | pass {c : Char} {rest : List Char} {all : List (List (Nat × List Char))}
    (h : pattern.Refuses (c :: rest)) (hrest : Finds pattern rest all) :
    Finds pattern (c :: rest) all
  | found {text rest : List Char} {words : List (Nat × List Char)}
    {all : List (List (Nat × List Char))} (h : pattern.Takes text rest words) (hne : text ≠ [])
    (hrest : Finds pattern rest all) : Finds pattern (text ++ rest) (words :: all)

/-- Places before the one at which a search goes on are passed over. -/
theorem matchesFrom_append (pattern : Pattern) (text : List Char) :
    ∀ (offset resume : Nat), offset + text.length ≤ resume →
      pattern.matchesFrom resume offset (text ++ rest) =
        pattern.matchesFrom resume (offset + text.length) rest := by
  induction text with
  | nil => exact fun _ _ _ => rfl
  | cons c text ih =>
    intro offset resume hresume
    rw [List.length_cons] at hresume ⊢
    rw [List.cons_append, matchesFrom, if_pos (by omega), ih _ _ (by omega), Nat.add_assoc,
      Nat.add_comm 1]

/-- **A scan told piece by piece is the search.** -/
theorem Finds.groups_matchesFrom (hgroup : pattern.roundsHoldNoGroup = true)
    (h : pattern.Finds text all) :
    ∀ (offset resume : Nat), source.drop offset = text → resume ≤ offset →
      (pattern.matchesFrom resume offset text).map (·.group? source) =
        all.map fun words index => words.lookup index := by
  induction h with
  | done => exact fun _ _ _ _ => rfl
  | pass h _ ih =>
    intro offset resume hsource hresume
    rw [matchesFrom, if_neg (by omega), h.matchAt? hgroup]
    have hdrop := congrArg (List.drop 1) hsource
    rw [List.drop_drop] at hdrop
    exact ih (offset + 1) resume hdrop (by omega)
  | @found text rest words all h hne _ ih =>
    intro offset resume hsource hresume
    obtain ⟨hit, hmatch, hstop, hwords⟩ := h.matchAt? hgroup hsource
    have hrest := ih _ (offset + text.length) (drop_of_append hsource) (Nat.le_refl _)
    obtain ⟨c, more, rfl⟩ := List.exists_cons_of_ne_nil hne
    -- The characters of the match behind its first one are passed over.
    have hmore : offset + 1 + more.length = offset + (c :: more).length := by
      rw [List.length_cons, Nat.add_assoc, Nat.add_comm 1]
    rw [List.cons_append] at hmatch ⊢
    rw [matchesFrom, if_neg (by omega), hmatch]
    dsimp only
    rw [hstop, matchesFrom_append pattern more (offset + 1) _ (Nat.le_of_eq hmore), hmore,
      List.map_cons, List.map_cons, hrest]
    exact congrArg (· :: _) (funext hwords)

theorem Finds.groups_allMatches (hgroup : pattern.roundsHoldNoGroup = true)
    (h : pattern.Finds source all) :
    (pattern.allMatches source).map (·.group? source) = all.map fun words index =>
      words.lookup index :=
  h.groups_matchesFrom hgroup 0 0 rfl (Nat.le_refl _)

/-! ## What is passed over -/

/-- What holds none of the words that the pattern begins with is passed over. -/
theorem Finds.append {words : List String} (hgroup : pattern.roundsHoldNoGroup = true)
    (hbegins : pattern.BeginsWith words) (habsent : ∀ word ∈ words, IsAbsent word.toList text rest)
    (h : pattern.Finds rest all) : pattern.Finds (text ++ rest) all := by
  induction text with
  | nil => exact h
  | cons c text ih =>
    have hrefuses : pattern.Refuses (c :: (text ++ rest)) := by
      rw [refuses_iff hgroup]
      rintro start stop hstart hread
      obtain ⟨word, hword, hbegin⟩ := hbegins start stop hread
      rw [hstart] at hbegin
      exact (isAbsent_cons.mp (habsent word hword)).1 hbegin
    exact .pass hrefuses (ih fun word hword => (isAbsent_cons.mp (habsent word hword)).2)

/-- A stretch that the pattern takes is found in front of one that holds none of its words. -/
theorem Finds.found_append {words : List String} {after : List Char}
    (hgroup : pattern.roundsHoldNoGroup = true) (hreads : pattern.readsAlways = true)
    (hbegins : pattern.BeginsWith words) (htakes : pattern.Takes text (after ++ rest) found)
    (hafter : ∀ word ∈ words, IsAbsent word.toList after rest) (h : pattern.Finds rest all) :
    pattern.Finds (text ++ (after ++ rest)) (found :: all) :=
  .found htakes (htakes.ne_nil hgroup hreads) (.append hgroup hbegins hafter h)

end FileLore.Pattern
