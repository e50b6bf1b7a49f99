import FileLore.Json.Spelling
import FileLore.Proofs.Text.Decimal

/-!
# The grammar of JSON

What it means for a text to spell a value, by the rules of the grammar and without a
word about reading: `Spells` has a rule for each kind of value, and says where space
may stand. The main statement is that every text that the rules derive is read as
what it spells (`ofText?_of_spells`), however it is spaced, whatever the order of its
members and whatever its strings are escaped with.

A number has no mark of its own at its end, so a text is read up to the end of what it
spells only if what follows cannot go on with a number (`EndsNumber`). In a
derivation this is always a space, a comma or a bracket.
-/

namespace FileLore.Json

open Text

/-! ## Space -/

/-- Whether a text holds nothing but space. -/
def AllSpace (text : List Char) : Prop := ∀ c ∈ text, isSpace c = true

theorem allSpace_nil : AllSpace [] := fun _ h => absurd h List.not_mem_nil

theorem skipSpace_append {space : List Char} (h : AllSpace space) (text : List Char) :
    skipSpace (space ++ text) = skipSpace text := by
  rw [skipSpace, List.dropWhile_append_of_pos h, skipSpace]

theorem skipSpace_cons {c : Char} (h : isSpace c = false) (text : List Char) :
    skipSpace (c :: text) = c :: text := by
  rw [skipSpace, List.dropWhile_cons_of_neg (by rw [h]; exact Bool.false_ne_true)]

theorem skipSpace_space_cons {space : List Char} (hspace : AllSpace space) {c : Char}
    (h : isSpace c = false) (text : List Char) : skipSpace (space ++ c :: text) = c :: text := by
  rw [skipSpace_append hspace, skipSpace_cons h]

/-! ## Numbers -/

/-- Decimal digits, at least one of them. -/
structure AreDigits (digits : List Nat) : Prop where
  ne_nil : digits ≠ []
  lt : ∀ digit ∈ digits, digit < 10

/-- What digits are spelled as. -/
def digitChars (digits : List Nat) : List Char := digits.map digitChar

/-- A fraction is a point with digits after it. -/
inductive SpellsFraction : List Char → Option (List Nat) → Prop where
  | absent : SpellsFraction [] none
  | point {digits : List Nat} (h : AreDigits digits) :
    SpellsFraction ('.' :: digitChars digits) (some digits)

/-- A power of ten is a mark, maybe a sign, and digits. -/
inductive SpellsPower : List Char → Option (Bool × List Nat) → Prop where
  | absent : SpellsPower [] none
  | unsigned {mark : Char} {digits : List Nat} (hmark : mark = 'e' ∨ mark = 'E')
    (h : AreDigits digits) : SpellsPower (mark :: digitChars digits) (some (false, digits))
  | signed {mark : Char} {digits : List Nat} (negative : Bool) (hmark : mark = 'e' ∨ mark = 'E')
    (h : AreDigits digits) :
    SpellsPower (mark :: (if negative then '-' else '+') :: digitChars digits)
      (some (negative, digits))

/-- A number is digits of which the first is a zero only if it is the only one, with a hyphen before
them if it is negative and maybe a fraction and a power of ten after them. -/
inductive SpellsNumber : List Char → NumberSpelling → Prop where
  | mk (negative : Bool) {whole : List Nat} {fraction : Option (List Nat)}
    {power : Option (Bool × List Nat)} {point exponent : List Char} (hwhole : AreDigits whole)
    (hzero : ∀ more, whole = 0 :: more → more = []) (hfraction : SpellsFraction point fraction)
    (hpower : SpellsPower exponent power) :
    SpellsNumber ((if negative then ['-'] else []) ++ digitChars whole ++ point ++ exponent)
      ⟨negative, whole, fraction, power⟩

/-- Whether a text begins with no digit. -/
def NoDigit (text : List Char) : Prop := ∀ c ∈ text.head?, digitValue? c = none

/-- Whether a number that stands before a text ends there. -/
structure EndsNumber (text : List Char) : Prop where
  noDigit : NoDigit text
  noPoint : text.head? ≠ some '.'
  noMark : text.head? ≠ some 'e' ∧ text.head? ≠ some 'E'

theorem endsNumber_nil : EndsNumber [] :=
  ⟨fun _ h => (Option.not_mem_none _ h).elim, nofun, nofun, nofun⟩

theorem endsNumber_space {space : List Char} (hspace : AllSpace space) {text : List Char}
    (h : EndsNumber text) : EndsNumber (space ++ text) := by
  cases space with
  | nil => exact h
  | cons c more =>
    have hc := hspace c (List.mem_cons_self ..)
    simp only [isSpace, Bool.or_eq_true, beq_iff_eq] at hc
    rcases hc with ((rfl | rfl) | rfl) | rfl <;>
      exact ⟨fun c h => by cases h; rfl, nofun, nofun, nofun⟩

/-- Digits are read up to their end. -/
theorem leadingDigits_append {digits : List Nat} (hlt : ∀ digit ∈ digits, digit < 10)
    {rest : List Char} (hrest : NoDigit rest) :
    leadingDigits (digitChars digits ++ rest) = (digits, rest) := by
  induction digits with
  | nil =>
    cases rest with
    | nil => rfl
    | cons c more =>
      have hc : digitValue? c = none := hrest c rfl
      simp only [digitChars, List.map_nil, List.nil_append, leadingDigits, hc]
  | cons digit digits ih =>
    have hdigit := digitValue?_digitChar (hlt digit (List.mem_cons_self ..))
    have hmore := ih fun other h => hlt other (List.mem_cons_of_mem _ h)
    rw [digitChars] at hmore
    simp only [digitChars, List.map_cons, List.cons_append, leadingDigits, hdigit, hmore]

theorem someDigits?_append {digits : List Nat} (h : AreDigits digits) {rest : List Char}
    (hrest : NoDigit rest) : someDigits? (digitChars digits ++ rest) = some (digits, rest) := by
  obtain ⟨digit, more, rfl⟩ := List.exists_cons_of_ne_nil h.ne_nil
  rw [someDigits?, leadingDigits_append h.lt hrest]

theorem wholeDigits?_append {digits : List Nat} (h : AreDigits digits)
    (hzero : ∀ more, digits = 0 :: more → more = []) {rest : List Char} (hrest : NoDigit rest) :
    wholeDigits? (digitChars digits ++ rest) = some (digits, rest) := by
  rw [wholeDigits?, leadingDigits_append h.lt hrest]
  split
  next heq => exact absurd (congrArg Prod.fst heq) h.ne_nil
  next heq => exact absurd (hzero _ (congrArg Prod.fst heq)) (List.cons_ne_nil _ _)
  next => rfl

/-- The first of some digits is a digit, which no sign and no mark is. -/
theorem digitChars_head {digits : List Nat} (h : AreDigits digits) :
    ∃ c more, digitChars digits = c :: more ∧ (digitValue? c).isSome := by
  obtain ⟨digit, more, rfl⟩ := List.exists_cons_of_ne_nil h.ne_nil
  refine ⟨digitChar digit, digitChars more, rfl, ?_⟩
  rw [digitValue?_digitChar (h.lt digit (List.mem_cons_self ..))]
  rfl

theorem fraction?_append {text : List Char} {fraction : Option (List Nat)}
    (h : SpellsFraction text fraction) {rest : List Char} (hrest : NoDigit rest)
    (hpoint : rest.head? ≠ some '.') : fraction? (text ++ rest) = some (fraction, rest) := by
  cases h with
  | absent =>
    rw [List.nil_append, fraction?]
    rintro more rfl
    exact hpoint rfl
  | point h =>
    rw [List.cons_append, fraction?, someDigits?_append h hrest]
    rfl

theorem signedDigits?_append {digits : List Nat} (h : AreDigits digits) {rest : List Char}
    (hrest : NoDigit rest) :
    signedDigits? (digitChars digits ++ rest) = some (some (false, digits), rest) := by
  obtain ⟨c, more, hc, hdigit⟩ := digitChars_head h
  have hread := someDigits?_append h hrest
  rw [hc, List.cons_append] at hread ⊢
  rw [signedDigits?, hread]
  · rfl
  · rintro text heq
    cases heq
    cases hdigit
  · rintro text heq
    cases heq
    cases hdigit

theorem power?_append {text : List Char} {power : Option (Bool × List Nat)}
    (h : SpellsPower text power) {rest : List Char} (hrest : EndsNumber rest) :
    power? (text ++ rest) = some (power, rest) := by
  cases h with
  | absent =>
    rw [List.nil_append, power?]
    · rintro more rfl
      exact hrest.noMark.1 rfl
    · rintro more rfl
      exact hrest.noMark.2 rfl
  | unsigned hmark h =>
    have hread := signedDigits?_append h hrest.noDigit
    rcases hmark with rfl | rfl <;> exact hread
  | @signed mark digits negative hmark h =>
    have hread := someDigits?_append h hrest.noDigit
    have hsigned : signedDigits? ((if negative then '-' else '+') :: (digitChars digits ++ rest)) =
        some (some (negative, digits), rest) := by
      cases negative <;> simp [signedDigits?, hread]
    rcases hmark with rfl | rfl <;> exact hsigned

/-- What stands after the whole part of a number begins with no digit, and with a point only if the
number has a fraction. -/
theorem noDigit_power {text : List Char} {power : Option (Bool × List Nat)}
    (h : SpellsPower text power) {rest : List Char} (hrest : EndsNumber rest) :
    NoDigit (text ++ rest) ∧ (text ++ rest).head? ≠ some '.' := by
  cases h with
  | absent => exact ⟨hrest.noDigit, hrest.noPoint⟩
  | unsigned hmark h =>
    rcases hmark with rfl | rfl <;> exact ⟨fun c h => by cases h; rfl, nofun⟩
  | signed negative hmark h =>
    rcases hmark with rfl | rfl <;> exact ⟨fun c h => by cases h; rfl, nofun⟩

theorem noDigit_fraction {text : List Char} {fraction : Option (List Nat)}
    (h : SpellsFraction text fraction) {rest : List Char} (hrest : NoDigit rest) :
    NoDigit (text ++ rest) := by
  cases h with
  | absent => exact hrest
  | point h => exact fun c h => by cases h; rfl

/-- **A number is read up to its end.** -/
theorem readNumber?_append {text : List Char} {number : NumberSpelling}
    (h : SpellsNumber text number) {rest : List Char} (hrest : EndsNumber rest) :
    readNumber? (text ++ rest) = some (number, rest) := by
  cases h with
  | @mk negative whole fraction power point exponent hwhole hzero hfraction hpower =>
    obtain ⟨hdigit, hpoint⟩ := noDigit_power hpower hrest
    have hwholeRead := wholeDigits?_append hwhole hzero (noDigit_fraction hfraction hdigit)
    have hfractionRead := fraction?_append hfraction hdigit hpoint
    have hpowerRead := power?_append hpower hrest
    cases negative with
    | true =>
      simp only [if_true, List.append_assoc, List.cons_append, List.nil_append, readNumber?,
        hwholeRead, hfractionRead, hpowerRead, Option.map_some]
    | false =>
      -- Without a sign the first character is a digit, which no sign is.
      obtain ⟨c, more, hc, hfirst⟩ := digitChars_head hwhole
      simp only [Bool.false_eq_true, if_false, List.nil_append, List.append_assoc]
      have hsign : ∀ text, digitChars whole ++ (point ++ (exponent ++ rest)) ≠ '-' :: text := by
        rintro text heq
        rw [hc, List.cons_append] at heq
        cases heq
        cases hfirst
      rw [readNumber?]
      · simp only [hwholeRead, hfractionRead, hpowerRead, Option.map_some]
      · exact hsign

/-! ## Strings -/

/-- A string is spelled part by part: a character by itself, unless it is a quote, a backslash or a
control character, by a short escape, or by the digits of a unit. -/
inductive SpellsParts : List Char → List StringPart → Prop where
  | nil : SpellsParts [] []
  | char {c : Char} {text : List Char} {parts : List StringPart} (hquote : c ≠ '"')
    (hslash : c ≠ '\\') (hlow : 0x20 ≤ c.toNat) (h : SpellsParts text parts) :
    SpellsParts (c :: text) (.char c :: parts)
  | short {e c : Char} {text : List Char} {parts : List StringPart}
    (he : shortEscape? e = some c) (h : SpellsParts text parts) :
    SpellsParts ('\\' :: e :: text) (.char c :: parts)
  | unit {a b c d : Char} {n : Nat} {text : List Char} {parts : List StringPart}
    (hn : unitValue? a b c d = some n) (h : SpellsParts text parts) :
    SpellsParts ('\\' :: 'u' :: a :: b :: c :: d :: text) (.unit n :: parts)

/-- What a string spells with the parts that it is made of. -/
def textOfParts? (parts : List StringPart) : Option String :=
  (charsOfParts? parts).map String.ofList

/-- **A string is read up to its closing quote.** -/
theorem readParts?_append {body : List Char} {parts : List StringPart} (h : SpellsParts body parts)
    (rest : List Char) : readParts? (body ++ '"' :: rest) = some (parts, rest) := by
  induction h with
  | nil => rfl
  | @char c text parts hquote hslash hlow _ ih =>
    have hc : (decide (c.toNat < 0x20) || decide (c = '\\')) = false := by
      simp [hslash, Nat.not_lt.mpr hlow]
    rw [List.cons_append, readParts?]
    · simp [hc, ih]
    all_goals intros; simp_all
  | @short e c text parts he _ ih =>
    have hu : e ≠ 'u' := by
      rintro rfl
      cases he
    rw [List.cons_append, List.cons_append, readParts?]
    · simp [he, ih]
    · intros; simp_all
  | unit hn _ ih =>
    simp only [List.cons_append, readParts?, hn, ih, Option.map_some]

theorem readString?_append {body : List Char} {parts : List StringPart} (h : SpellsParts body parts)
    (rest : List Char) : readString? (body ++ '"' :: rest) = some (textOfParts? parts, rest) := by
  rw [readString?, readParts?_append h]
  rfl

/-! ## Values -/

mutual

/-- Whether a text spells a value, without space around it. -/
inductive Spells : List Char → Spelling → Prop where
  | null : Spells "null".toList .null
  | bool (value : Bool) : Spells (if value then "true" else "false").toList (.bool value)
  | number {text : List Char} {number : NumberSpelling} (h : SpellsNumber text number) :
    Spells text (.number number)
  | string {body : List Char} {parts : List StringPart} (h : SpellsParts body parts) :
    Spells ('"' :: (body ++ ['"'])) (.string (textOfParts? parts))
  | emptyArray {space : List Char} (hspace : AllSpace space) :
    Spells ('[' :: (space ++ [']'])) (.array [])
  | array {space text : List Char} {items : List Spelling} (hspace : AllSpace space)
    (h : SpellsItems text items) : Spells ('[' :: (space ++ text ++ [']'])) (.array items)
  | emptyObject {space : List Char} (hspace : AllSpace space) :
    Spells ('\x7b' :: (space ++ ['\x7d'])) (.object [])
  | object {space text : List Char} {members : List (Option String × Spelling)}
    (hspace : AllSpace space) (h : SpellsMembers text members) :
    Spells ('\x7b' :: (space ++ text ++ ['\x7d'])) (.object members)

/-- Whether a text spells items with commas between them; space may stand after each and before each
but the first. -/
inductive SpellsItems : List Char → List Spelling → Prop where
  | last {text after : List Char} {item : Spelling} (h : Spells text item)
    (hafter : AllSpace after) : SpellsItems (text ++ after) [item]
  | more {text after before others : List Char} {item : Spelling} {items : List Spelling}
    (h : Spells text item) (hafter : AllSpace after) (hbefore : AllSpace before)
    (hothers : SpellsItems others items) :
    SpellsItems (text ++ after ++ ',' :: (before ++ others)) (item :: items)

/-- Whether a text spells a member, with space after its value. -/
inductive SpellsMember : List Char → Option String × Spelling → Prop where
  | mk {body mid gap text after : List Char} {parts : List StringPart} {value : Spelling}
    (hname : SpellsParts body parts) (hmid : AllSpace mid) (hgap : AllSpace gap)
    (h : Spells text value) (hafter : AllSpace after) :
    SpellsMember ('"' :: (body ++ '"' :: (mid ++ ':' :: (gap ++ text ++ after))))
      (textOfParts? parts, value)

/-- Whether a text spells members with commas between them. -/
inductive SpellsMembers : List Char → List (Option String × Spelling) → Prop where
  | last {text : List Char} {member : Option String × Spelling} (h : SpellsMember text member) :
    SpellsMembers text [member]
  | more {text before others : List Char} {member : Option String × Spelling}
    {members : List (Option String × Spelling)} (h : SpellsMember text member)
    (hbefore : AllSpace before) (hothers : SpellsMembers others members) :
    SpellsMembers (text ++ ',' :: (before ++ others)) (member :: members)

end

/-- A number begins with its sign or with a digit. -/
theorem SpellsNumber.head {text : List Char} {number : NumberSpelling}
    (h : SpellsNumber text number) :
    ∃ c more, text = c :: more ∧ (c = '-' ∨ (digitValue? c).isSome) := by
  cases h with
  | mk negative hwhole _ _ _ =>
    obtain ⟨c, more, hc, hdigit⟩ := digitChars_head hwhole
    cases negative with
    | true => exact ⟨'-', _, rfl, Or.inl rfl⟩
    | false => exact ⟨c, _, by rw [hc]; rfl, Or.inr hdigit⟩

/-- No value begins with space or with the bracket that closes an array. -/
theorem Spells.head {text : List Char} {spelling : Spelling} (h : Spells text spelling) :
    ∃ c more, text = c :: more ∧ isSpace c = false ∧ c ≠ ']' := by
  cases h with
  | null => exact ⟨'n', _, rfl, rfl, by decide⟩
  | bool value => cases value <;> exact ⟨_, _, rfl, rfl, by decide⟩
  | number h =>
    obtain ⟨c, more, rfl, hc⟩ := h.head
    refine ⟨c, more, rfl, ?_, ?_⟩
    · rw [Bool.eq_false_iff]
      intro hspace
      simp only [isSpace, Bool.or_eq_true, beq_iff_eq] at hspace
      rcases hspace with ((rfl | rfl) | rfl) | rfl <;> rcases hc with hc | hc <;> cases hc
    · rintro rfl
      rcases hc with hc | hc <;> cases hc
  | string h => exact ⟨'"', _, rfl, rfl, by decide⟩
  | emptyArray hspace => exact ⟨'[', _, rfl, rfl, by decide⟩
  | array hspace h => exact ⟨'[', _, rfl, rfl, by decide⟩
  | emptyObject hspace => exact ⟨'\x7b', _, rfl, rfl, by decide⟩
  | object hspace h => exact ⟨'\x7b', _, rfl, rfl, by decide⟩

theorem Spells.length_pos {text : List Char} {spelling : Spelling} (h : Spells text spelling) :
    0 < text.length := by
  obtain ⟨c, more, rfl, -⟩ := h.head
  exact Nat.succ_pos _

theorem SpellsItems.head {text : List Char} {items : List Spelling} (h : SpellsItems text items) :
    ∃ c more, text = c :: more ∧ isSpace c = false ∧ c ≠ ']' := by
  cases h with
  | last h hafter =>
    obtain ⟨c, more, rfl, hc⟩ := h.head
    exact ⟨c, _, rfl, hc⟩
  | more h hafter hbefore hothers =>
    obtain ⟨c, more, rfl, hc⟩ := h.head
    exact ⟨c, _, rfl, hc⟩

theorem SpellsMembers.head {text : List Char} {members : List (Option String × Spelling)}
    (h : SpellsMembers text members) : ∃ more, text = '"' :: more := by
  cases h with
  | last h => cases h with | mk => exact ⟨_, rfl⟩
  | more h hbefore hothers => cases h with | mk => exact ⟨_, rfl⟩

theorem SpellsMembers.length_pos {text : List Char} {members : List (Option String × Spelling)}
    (h : SpellsMembers text members) : 0 < text.length := by
  obtain ⟨more, rfl⟩ := h.head
  exact Nat.succ_pos _

theorem readWord?_append (word : String) (value : Spelling) (rest : List Char) :
    readWord? word value (word.toList ++ rest) = some (value, rest) := by
  have hprefix : word.toList.isPrefixOf (word.toList ++ rest) = true :=
    List.isPrefixOf_iff_prefix.mpr (List.prefix_append _ _)
  rw [readWord?, if_pos hprefix, ← String.length_toList, List.drop_left]

theorem endsNumber_cons {c : Char} (h : c = ',' ∨ c = ']' ∨ c = '\x7d') (rest : List Char) :
    EndsNumber (c :: rest) := by
  rcases h with rfl | rfl | rfl <;> exact ⟨fun c h => by cases h; rfl, nofun, nofun, nofun⟩

theorem readValue?_number {text : List Char} {number : NumberSpelling}
    (h : SpellsNumber text number) (fuel : Nat) {rest : List Char} (hrest : EndsNumber rest) :
    readValue? (fuel + 1) (text ++ rest) = some (.number number, rest) := by
  have hread := readNumber?_append h hrest
  obtain ⟨c, more, rfl, hc⟩ := h.head
  rw [List.cons_append] at hread ⊢
  rw [readValue?]
  · rw [hread]
    rfl
  all_goals
    intro text heq
    cases heq
    rcases hc with hc | hc <;> cases hc

/-- Behind an opening bracket that does not close at once there are items. -/
theorem readValue?_bracket {space : List Char} (hspace : AllSpace space) {c : Char}
    (hc : isSpace c = false) (hne : c ≠ ']') (fuel : Nat) (text : List Char) :
    readValue? (fuel + 1) ('[' :: (space ++ c :: text)) =
      (readItems? fuel (c :: text)).map fun (items, rest) => (.array items, rest) := by
  simp only [readValue?, skipSpace_space_cons hspace hc]
  split
  next heq => exact absurd (List.cons.inj heq).1 hne
  next => rfl

/-- Behind an opening brace that does not close at once there are members. -/
theorem readValue?_brace {space : List Char} (hspace : AllSpace space) (fuel : Nat)
    (text : List Char) :
    readValue? (fuel + 1) ('\x7b' :: (space ++ '"' :: text)) =
      (readMembers? fuel ('"' :: text)).map fun (members, rest) => (.object members, rest) := by
  simp only [readValue?, skipSpace_space_cons hspace (show isSpace '"' = false from rfl)]
  rfl

/-- The members that are read from behind a member on: no more if a brace closes the object, others
behind a comma. -/
def membersAfter? (fuel : Nat) (member : Option String × Spelling) (rest : List Char) :
    Option (List (Option String × Spelling) × List Char) :=
  match skipSpace rest with
  | '\x7d' :: rest => some ([member], rest)
  | ',' :: rest =>
    (readMembers? fuel (skipSpace rest)).map fun (members, rest) => (member :: members, rest)
  | _ => none

mutual

/-- A text that spells a value is read up to its end, whatever follows. -/
theorem readValue?_append : ∀ {text : List Char} {spelling : Spelling}, Spells text spelling →
    ∀ (fuel : Nat) (rest : List Char), 2 * text.length ≤ fuel + 2 → EndsNumber rest →
      readValue? (fuel + 1) (text ++ rest) = some (spelling, rest)
  | _, _, .null, fuel, rest, _, _ => readWord?_append "null" .null rest
  | _, _, .bool true, fuel, rest, _, _ => readWord?_append "true" (.bool true) rest
  | _, _, .bool false, fuel, rest, _, _ => readWord?_append "false" (.bool false) rest
  | _, _, .number h, fuel, rest, _, hrest => readValue?_number h fuel hrest
  | _, _, .string h, fuel, rest, _, _ => by
    simp only [List.cons_append, List.append_assoc, List.nil_append, readValue?,
      readString?_append h, Option.map_some]
  | _, _, .emptyArray hspace, fuel, rest, _, _ => by
    simp only [List.cons_append, List.append_assoc, List.nil_append, readValue?,
      skipSpace_space_cons hspace (show isSpace ']' = false from rfl)]
  | _, _, .array hspace h, fuel, rest, hfuel, _ => by
    simp only [List.length_cons, List.length_append, List.length_nil] at hfuel
    obtain ⟨fuel, rfl⟩ : ∃ less, fuel = less + 1 := ⟨fuel - 1, by omega⟩
    have hitems := readItems?_append h fuel rest (by omega)
    obtain ⟨c, more, rfl, hc, hne⟩ := h.head
    simp only [List.cons_append, List.append_assoc, List.nil_append] at hitems ⊢
    rw [readValue?_bracket hspace hc hne, hitems]
    rfl
  | _, _, .emptyObject hspace, fuel, rest, _, _ => by
    simp only [List.cons_append, List.append_assoc, List.nil_append, readValue?,
      skipSpace_space_cons hspace (show isSpace '\x7d' = false from rfl)]
  | _, _, .object hspace h, fuel, rest, hfuel, _ => by
    simp only [List.length_cons, List.length_append, List.length_nil] at hfuel
    obtain ⟨fuel, rfl⟩ : ∃ less, fuel = less + 1 := ⟨fuel - 1, by omega⟩
    obtain ⟨fuel, rfl⟩ : ∃ less, fuel = less + 1 := ⟨fuel - 1, by omega⟩
    have hmembers := readMembers?_append h fuel rest (by omega)
    obtain ⟨more, rfl⟩ := h.head
    simp only [List.cons_append, List.append_assoc, List.nil_append] at hmembers ⊢
    rw [readValue?_brace hspace, hmembers]
    rfl

theorem readItems?_append : ∀ {text : List Char} {items : List Spelling}, SpellsItems text items →
    ∀ (fuel : Nat) (rest : List Char), 2 * text.length ≤ fuel + 1 →
      readItems? (fuel + 1) (text ++ ']' :: rest) = some (items, rest)
  | _, _, @SpellsItems.last text after _ h hafter, fuel, rest, hfuel => by
    have hpos := h.length_pos
    simp only [List.length_append] at hfuel
    obtain ⟨fuel, rfl⟩ : ∃ less, fuel = less + 1 := ⟨fuel - 1, by omega⟩
    have hvalue := readValue?_append h fuel (after ++ ']' :: rest) (by omega)
      (endsNumber_space hafter (endsNumber_cons (by decide) rest))
    simp only [List.append_assoc, readItems?, hvalue,
      skipSpace_space_cons hafter (show isSpace ']' = false from rfl)]
  | _, _, @SpellsItems.more text after before others _ _ h hafter hbefore hothers, fuel, rest,
      hfuel => by
    have hpos := h.length_pos
    simp only [List.length_append, List.length_cons] at hfuel
    obtain ⟨fuel, rfl⟩ : ∃ less, fuel = less + 1 := ⟨fuel - 1, by omega⟩
    have hvalue := readValue?_append h fuel
      (after ++ ',' :: (before ++ (others ++ ']' :: rest))) (by omega)
      (endsNumber_space hafter (endsNumber_cons (by decide) _))
    have hmore := readItems?_append hothers fuel rest (by omega)
    obtain ⟨c, more, rfl, hc, -⟩ := hothers.head
    simp only [List.append_assoc, List.cons_append] at hvalue hmore ⊢
    rw [readItems?, hvalue]
    simp only [skipSpace_space_cons hafter (show isSpace ',' = false from rfl),
      skipSpace_space_cons hbefore hc, hmore, Option.map_some]

/-- A member is read, and then what follows it decides. -/
theorem readMembers?_member : ∀ {text : List Char} {member : Option String × Spelling},
    SpellsMember text member → ∀ (fuel : Nat) (rest : List Char), 2 * text.length ≤ fuel + 2 →
      EndsNumber rest →
      readMembers? (fuel + 2) (text ++ rest) = membersAfter? (fuel + 1) member rest
  | _, _, @SpellsMember.mk body mid gap text after _ _ hname hmid hgap h hafter, fuel, rest,
      hfuel, hrest => by
    simp only [List.length_append, List.length_cons] at hfuel
    have hvalue := readValue?_append h fuel (after ++ rest) (by omega)
      (endsNumber_space hafter hrest)
    obtain ⟨c, more, rfl, hc, -⟩ := h.head
    simp only [List.append_assoc, List.cons_append] at hvalue ⊢
    rw [readMembers?, readString?_append hname]
    simp only [skipSpace_space_cons hmid (show isSpace ':' = false from rfl),
      skipSpace_space_cons hgap hc, hvalue, skipSpace_append hafter]
    rfl

theorem readMembers?_append : ∀ {text : List Char} {members : List (Option String × Spelling)},
    SpellsMembers text members → ∀ (fuel : Nat) (rest : List Char), 2 * text.length ≤ fuel + 2 →
      readMembers? (fuel + 2) (text ++ '\x7d' :: rest) = some (members, rest)
  | _, _, .last h, fuel, rest, hfuel => by
    rw [readMembers?_member h fuel _ hfuel (endsNumber_cons (by decide) rest), membersAfter?,
      skipSpace_cons rfl]
    rfl
  | _, _, @SpellsMembers.more text before others _ _ h hbefore hothers, fuel, rest, hfuel => by
    have hpos := hothers.length_pos
    simp only [List.length_append, List.length_cons] at hfuel
    obtain ⟨fuel, rfl⟩ : ∃ less, fuel = less + 1 := ⟨fuel - 1, by omega⟩
    have hmore := readMembers?_append hothers fuel rest (by omega)
    obtain ⟨next, rfl⟩ := hothers.head
    simp only [List.append_assoc, List.cons_append] at hmore ⊢
    rw [readMembers?_member h _ _ (by omega) (endsNumber_cons (by decide) _), membersAfter?,
      skipSpace_cons rfl]
    simp only [skipSpace_space_cons hbefore (show isSpace '"' = false from rfl), hmore,
      Option.map_some]

end

/-- **A text that spells a value is read as that value**, with any space around it. -/
theorem ofText?_of_spells {before text after : List Char} {spelling : Spelling}
    (hbefore : AllSpace before) (h : Spells text spelling) (hafter : AllSpace after) :
    Spelling.ofText? (before ++ text ++ after) = some spelling := by
  have hfuel : 2 * text.length ≤ 2 * (before ++ text ++ after).length + 1 + 2 := by
    simp only [List.length_append]
    omega
  have hread := readValue?_append h (2 * (before ++ text ++ after).length + 1) after hfuel
    (by simpa using endsNumber_space hafter endsNumber_nil)
  obtain ⟨c, more, rfl, hc, -⟩ := h.head
  have hend : skipSpace after = [] := by
    rw [← List.append_nil after, skipSpace_append hafter]
    rfl
  rw [Spelling.ofText?, List.append_assoc, List.cons_append, skipSpace_space_cons hbefore hc,
    ← List.cons_append, ← List.append_assoc, hread]
  simp only [hend, List.isEmpty_nil, if_true]

end FileLore.Json
