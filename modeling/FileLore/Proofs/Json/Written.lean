import FileLore.Json.Printer
import FileLore.Json.Reader
import FileLore.Proofs.Json.Grammar

/-!
# What is written can be read

Both forms in which values are written, the compact one and the indented one, follow
the grammar (`spells_compactChars`, `spells_prettyChars`), so both are read back as the
same spelling (`ofText?_of_mem_forms`). The two differ in nothing but space.

This is said of values whose numbers are whole. Of the others it is the shortest
decimal that is written, which calls for a theory of its own; no record holds one.
-/

namespace FileLore.Json

open Text

/-- The digits that a whole number is written with. -/
def NumberSpelling.ofInt (value : Int) : NumberSpelling :=
  ⟨decide (value < 0), decimalDigits value.natAbs, none, none⟩

mutual

/-- The spelling that a value is written in, if all numbers in it are whole. -/
def spelling? : Json → Option Spelling
  | .null => some .null
  | .bool value => some (.bool value)
  | .number (.integer value) => some (.number (.ofInt value))
  | .number (.float _) => none
  | .string value => some (.string (some value))
  | .array items => (itemSpellings? items).map .array
  | .object members => (memberSpellings? members).map .object

/-- The spellings of the items. -/
def itemSpellings? : List Json → Option (List Spelling)
  | [] => some []
  | item :: more => do
    let spelling ← spelling? item
    let spellings ← itemSpellings? more
    return spelling :: spellings

/-- The spellings of the members with their names. -/
def memberSpellings? : List (String × Json) → Option (List (Option String × Spelling))
  | [] => some []
  | (name, value) :: more => do
    let spelling ← spelling? value
    let spellings ← memberSpellings? more
    return (some name, spelling) :: spellings

end

theorem itemSpellings?_cons {item : Json} {more : List Json} {spellings : List Spelling}
    (h : itemSpellings? (item :: more) = some spellings) :
    ∃ first, item.spelling? = some first ∧ ∃ others, itemSpellings? more = some others ∧
      spellings = first :: others := by
  obtain ⟨first, hfirst, h⟩ := Option.bind_eq_some_iff.mp h
  obtain ⟨others, hothers, h⟩ := Option.bind_eq_some_iff.mp h
  exact ⟨first, hfirst, others, hothers, (Option.some.inj h).symm⟩

theorem memberSpellings?_cons {name : String} {value : Json} {more : List (String × Json)}
    {spellings : List (Option String × Spelling)}
    (h : memberSpellings? ((name, value) :: more) = some spellings) :
    ∃ first, value.spelling? = some first ∧ ∃ others, memberSpellings? more = some others ∧
      spellings = (some name, first) :: others := by
  obtain ⟨first, hfirst, h⟩ := Option.bind_eq_some_iff.mp h
  obtain ⟨others, hothers, h⟩ := Option.bind_eq_some_iff.mp h
  exact ⟨first, hfirst, others, hothers, (Option.some.inj h).symm⟩

/-! ## Numbers and strings -/

theorem areDigits_decimalDigits (n : Nat) : AreDigits (decimalDigits n) :=
  ⟨decimalDigits_ne_nil n, fun _ => decimalDigits_lt⟩

/-- A whole number is written as the grammar wants it. -/
theorem spellsNumber_intText (value : Int) : SpellsNumber (intText value) (.ofInt value) := by
  have hspells (negative : Bool) (n : Nat) :
      SpellsNumber ((if negative then ['-'] else []) ++ natText n)
        ⟨negative, decimalDigits n, none, none⟩ := by
    rw [natText_eq]
    simpa [digitChars] using SpellsNumber.mk negative (areDigits_decimalDigits n)
      (fun more h => decimalDigits_zero_first h) .absent .absent
  cases value with
  | ofNat n =>
    have hsign : decide (Int.ofNat n < 0) = false :=
      decide_eq_false (Int.not_lt.mpr (Int.natCast_nonneg n))
    rw [NumberSpelling.ofInt, hsign]
    exact hspells false n
  | negSucc n =>
    have hsign : decide (Int.negSucc n < 0) = true := decide_eq_true (Int.negSucc_lt_zero n)
    rw [NumberSpelling.ofInt, hsign]
    exact hspells true (n + 1)

/-- A whole number that 64 bits hold without a sign is read back. -/
theorem unsigned?_ofInt {n : Nat} (h : n ≤ NumberSpelling.greatestWhole) :
    (NumberSpelling.ofInt n).unsigned? = some n := by
  have hvalue : (NumberSpelling.ofInt n).value? = some (.integer n) := by
    simp [NumberSpelling.ofInt, NumberSpelling.value?, valueOfDigits_decimalDigits, h]
  rw [NumberSpelling.unsigned?, hvalue]

/-- Whether a text in front of other parts of a string spells a character. -/
def SpellsChar (text : List Char) (c : Char) : Prop :=
  ∃ part, (∀ more parts, SpellsParts more parts → SpellsParts (text ++ more) (part :: parts)) ∧
    ∀ parts, charsOfParts? (part :: parts) = (charsOfParts? parts).map (c :: ·)

theorem spellsChar_self {c : Char} (hquote : c ≠ '"') (hslash : c ≠ '\\') (hlow : 0x20 ≤ c.toNat) :
    SpellsChar [c] c :=
  ⟨.char c, fun _ _ h => .char hquote hslash hlow h, fun _ => rfl⟩

theorem spellsChar_short {e c : Char} (h : shortEscape? e = some c) : SpellsChar ['\\', e] c :=
  ⟨.char c, fun _ _ hmore => .short h hmore, fun _ => rfl⟩

theorem spellsChar_unit {x y z w c : Char} (h : unitValue? x y z w = some c.toNat)
    (hlow : c.toNat < 0xD800) : SpellsChar ['\\', 'u', x, y, z, w] c := by
  refine ⟨.unit c.toNat, fun _ _ hmore => .unit h hmore, fun parts => ?_⟩
  have hplain : (decide (c.toNat < 0xD800) || decide (0xE000 ≤ c.toNat)) = true := by simp [hlow]
  rw [charsOfParts?.eq_def]
  simp only [hplain, if_true, Char.ofNat_toNat]

/-- A control character is written as four digits, two zeros before its own, which give it back. -/
theorem hexFour_of_lt (n : Nat) (h : n < 0x20) : ∃ x y z w, hexFour 'a' n = [x, y, z, w] ∧
    unitValue? x y z w = some n := by
  have hread : ∀ n < 0x20,
      hexFour 'a' n = ['0', '0', (hexFour 'a' n).getD 2 '0', (hexFour 'a' n).getD 3 '0'] ∧
        unitValue? '0' '0' ((hexFour 'a' n).getD 2 '0') ((hexFour 'a' n).getD 3 '0') = some n := by
    decide
  obtain ⟨hdigits, hvalue⟩ := hread n h
  exact ⟨_, _, _, _, hdigits, hvalue⟩

/-- What a character is written as spells this character. -/
theorem spellsChar_stringChar (c : Char) : SpellsChar (stringChar c) c := by
  unfold stringChar
  split
  next h => subst h; exact spellsChar_short rfl
  next hquote =>
  split
  next h => subst h; exact spellsChar_short rfl
  next hslash =>
  iterate 5
    split
    next h => subst h; exact spellsChar_short rfl
  split
  next hlow =>
    obtain ⟨x, y, z, w, hdigits, hvalue⟩ := hexFour_of_lt c.toNat hlow
    rw [hdigits]
    exact spellsChar_unit hvalue (Nat.lt_trans hlow (by decide))
  next hlow => exact spellsChar_self hquote hslash (Nat.not_lt.mp hlow)

theorem spellsParts_stringChars (chars : List Char) :
    ∃ parts, SpellsParts (chars.flatMap stringChar) parts ∧ charsOfParts? parts = some chars := by
  induction chars with
  | nil => exact ⟨[], .nil, rfl⟩
  | cons c chars ih =>
    obtain ⟨parts, hparts, hchars⟩ := ih
    obtain ⟨part, hpart, hread⟩ := spellsChar_stringChar c
    exact ⟨part :: parts, hpart _ _ hparts, by rw [hread, hchars]; rfl⟩

/-- **A string is written as the grammar wants it**, whatever characters it holds. -/
theorem exists_stringText (text : String) :
    ∃ body parts, stringText text = '"' :: (body ++ ['"']) ∧ SpellsParts body parts ∧
      textOfParts? parts = some text := by
  obtain ⟨parts, hparts, hchars⟩ := spellsParts_stringChars text.toList
  refine ⟨_, parts, rfl, hparts, ?_⟩
  rw [textOfParts?, hchars, Option.map_some, String.ofList_toList]

theorem spells_stringText (text : String) : Spells (stringText text) (.string (some text)) := by
  obtain ⟨body, parts, htext, hparts, hvalue⟩ := exists_stringText text
  rw [htext, ← hvalue]
  exact .string hparts

/-- A name in front of a value makes a member. -/
theorem spellsMember_stringText (name : String) {gap text after : List Char} {value : Spelling}
    (hgap : AllSpace gap) (h : Spells text value) (hafter : AllSpace after) :
    SpellsMember (stringText name ++ ':' :: (gap ++ text ++ after)) (some name, value) := by
  obtain ⟨body, parts, htext, hparts, hvalue⟩ := exists_stringText name
  rw [htext, ← hvalue]
  simpa using SpellsMember.mk hparts allSpace_nil hgap h hafter

/-! ## The compact form -/

mutual

/-- **The compact form follows the grammar.** -/
theorem spells_compactChars : ∀ {value : Json} {spelling : Spelling},
    value.spelling? = some spelling → Spells value.compactChars spelling
  | .null, _, h => by
    cases h
    exact .null
  | .bool true, _, h => by
    cases h
    exact .bool true
  | .bool false, _, h => by
    cases h
    exact .bool false
  | .number (.integer value), _, h => by
    cases h
    exact .number (spellsNumber_intText value)
  | .number (.float value), _, h => by cases h
  | .string value, _, h => by
    cases h
    exact spells_stringText value
  | .array [], _, h => by
    cases h
    exact .emptyArray allSpace_nil
  | .array (item :: more), _, h => by
    obtain ⟨spellings, hspellings, rfl⟩ := Option.map_eq_some_iff.mp h
    exact .array allSpace_nil (spellsItems_compactItems hspellings)
  | .object [], _, h => by
    cases h
    exact .emptyObject allSpace_nil
  | .object (member :: more), _, h => by
    obtain ⟨spellings, hspellings, rfl⟩ := Option.map_eq_some_iff.mp h
    exact .object allSpace_nil (spellsMembers_compactMembers hspellings)

theorem spellsItems_compactItems : ∀ {item : Json} {more : List Json} {spellings : List Spelling},
    itemSpellings? (item :: more) = some spellings →
      SpellsItems (compactItems (item :: more)) spellings
  | item, [], _, h => by
    obtain ⟨spelling, hitem, _, hmore, rfl⟩ := itemSpellings?_cons h
    cases hmore
    simpa [compactItems] using SpellsItems.last (spells_compactChars hitem) allSpace_nil
  | item, next :: more, _, h => by
    obtain ⟨spelling, hitem, spellings, hmore, rfl⟩ := itemSpellings?_cons h
    simpa [compactItems] using SpellsItems.more (spells_compactChars hitem) allSpace_nil
      allSpace_nil (spellsItems_compactItems hmore)

theorem spellsMembers_compactMembers : ∀ {member : String × Json} {more : List (String × Json)}
    {spellings : List (Option String × Spelling)},
    memberSpellings? (member :: more) = some spellings →
      SpellsMembers (compactMembers (member :: more)) spellings
  | (name, value), [], _, h => by
    obtain ⟨spelling, hvalue, _, hmore, rfl⟩ := memberSpellings?_cons h
    cases hmore
    simpa [compactMembers] using SpellsMembers.last
      (spellsMember_stringText name allSpace_nil (spells_compactChars hvalue) allSpace_nil)
  | (name, value), next :: more, _, h => by
    obtain ⟨spelling, hvalue, spellings, hmore, rfl⟩ := memberSpellings?_cons h
    simpa [compactMembers] using SpellsMembers.more
      (spellsMember_stringText name allSpace_nil (spells_compactChars hvalue) allSpace_nil)
      allSpace_nil (spellsMembers_compactMembers hmore)

end

/-! ## The indented form -/

theorem allSpace_newLine (depth : Nat) : AllSpace (newLine depth) := by
  intro c hc
  rcases List.mem_cons.mp hc with rfl | hc
  · rfl
  · rw [List.eq_of_mem_replicate hc]
    rfl

theorem allSpace_blank : AllSpace [' '] := by
  intro c hc
  rw [List.mem_singleton.mp hc]
  rfl

mutual

/-- **The indented form follows the grammar.** -/
theorem spells_prettyChars : ∀ {value : Json} {spelling : Spelling} (depth : Nat),
    value.spelling? = some spelling → Spells (value.prettyChars depth) spelling
  | .null, _, depth, h => by
    cases h
    exact .null
  | .bool true, _, depth, h => by
    cases h
    exact .bool true
  | .bool false, _, depth, h => by
    cases h
    exact .bool false
  | .number (.integer value), _, depth, h => by
    cases h
    exact .number (spellsNumber_intText value)
  | .number (.float value), _, depth, h => by cases h
  | .string value, _, depth, h => by
    cases h
    exact spells_stringText value
  | .array [], _, depth, h => by
    cases h
    exact .emptyArray allSpace_nil
  | .array (item :: more), _, depth, h => by
    obtain ⟨_, hitems, rfl⟩ := Option.map_eq_some_iff.mp h
    obtain ⟨spelling, hitem, spellings, hmore, rfl⟩ := itemSpellings?_cons hitems
    simpa [prettyChars] using Spells.array (allSpace_newLine (depth + 1))
      (spellsItems_prettyItems (depth + 1) hmore (spells_prettyChars (depth + 1) hitem)
        (allSpace_newLine depth))
  | .object [], _, depth, h => by
    cases h
    exact .emptyObject allSpace_nil
  | .object ((name, value) :: more), _, depth, h => by
    obtain ⟨_, hmembers, rfl⟩ := Option.map_eq_some_iff.mp h
    obtain ⟨spelling, hvalue, spellings, hmore, rfl⟩ := memberSpellings?_cons hmembers
    simpa [prettyChars] using Spells.object (allSpace_newLine (depth + 1))
      (spellsMembers_prettyMembers (depth + 1) hmore name (spells_prettyChars (depth + 1) hvalue)
        (allSpace_newLine depth))

/-- Further items go on with an item that stands before them; the space that is left before the
closing bracket belongs to the last of them. -/
theorem spellsItems_prettyItems : ∀ {more : List Json} {spellings : List Spelling} (depth : Nat),
    itemSpellings? more = some spellings → ∀ {text space : List Char} {spelling : Spelling},
      Spells text spelling → AllSpace space →
        SpellsItems (text ++ prettyItems depth more ++ space) (spelling :: spellings)
  | [], _, depth, h, text, space, spelling, htext, hspace => by
    cases h
    simpa [prettyItems] using SpellsItems.last htext hspace
  | item :: more, _, depth, h, text, space, spelling, htext, hspace => by
    obtain ⟨other, hitem, spellings, hmore, rfl⟩ := itemSpellings?_cons h
    simpa [prettyItems] using SpellsItems.more htext allSpace_nil (allSpace_newLine depth)
      (spellsItems_prettyItems depth hmore (spells_prettyChars depth hitem) hspace)

theorem spellsMembers_prettyMembers : ∀ {more : List (String × Json)}
    {spellings : List (Option String × Spelling)} (depth : Nat),
    memberSpellings? more = some spellings → ∀ (name : String) {text space : List Char}
      {spelling : Spelling}, Spells text spelling → AllSpace space →
        SpellsMembers (stringText name ++ ':' :: ' ' :: text ++ prettyMembers depth more ++ space)
          ((some name, spelling) :: spellings)
  | [], _, depth, h, name, text, space, spelling, htext, hspace => by
    cases h
    simpa [prettyMembers] using SpellsMembers.last
      (spellsMember_stringText name allSpace_blank htext hspace)
  | (other, value) :: more, _, depth, h, name, text, space, spelling, htext, hspace => by
    obtain ⟨first, hvalue, spellings, hmore, rfl⟩ := memberSpellings?_cons h
    simpa [prettyMembers] using SpellsMembers.more
      (spellsMember_stringText name allSpace_blank htext allSpace_nil) (allSpace_newLine depth)
      (spellsMembers_prettyMembers depth hmore other (spells_prettyChars depth hvalue) hspace)

end

/-! ## Reading back -/

/-- The forms in which values are written. -/
def forms : List (Json → String) := [compact, pretty]

/-- **What is written in either form is read back as the spelling of the value.** -/
theorem ofText?_of_mem_forms {form : Json → String} (hform : form ∈ forms) {value : Json}
    {spelling : Spelling} (h : value.spelling? = some spelling) :
    Spelling.ofText? (form value).toList = some spelling := by
  have hread {text : List Char} (hspells : Spells text spelling) :
      Spelling.ofText? (String.ofList text).toList = some spelling := by
    simpa using ofText?_of_spells allSpace_nil hspells allSpace_nil
  simp only [forms, List.mem_cons, List.not_mem_nil, or_false] at hform
  rcases hform with rfl | rfl
  · exact hread (spells_compactChars h)
  · exact hread (spells_prettyChars 0 h)

end FileLore.Json
