import FileLore.Json.Reader
import FileLore.Proofs.Json.Grammar
import FileLore.Proofs.Json.Members

/-!
# What a spelling stands for

A spelling stands for a value just if it is nested no deeper than is allowed and each of
its parts stands for something by itself (`ofSpelling?_isSome`): a single number out of
range, or half a character in a string, takes the meaning from all that it stands in
(`IsSound`). Of members with one name the last gives the member of the object
(`member?_of_last`).

A whole number that 64 bits hold is in range and is read exactly (`value?_whole`). Only
minus zero is kept in double precision, for the sake of its sign.
-/

namespace FileLore.Json

open Text

/-! ## Depth and soundness -/

namespace Spelling

mutual

/-- How deep arrays and objects are nested. -/
def depth : Spelling → Nat
  | .null => 0
  | .bool _ => 0
  | .number _ => 0
  | .string _ => 0
  | .array items => itemsDepth items + 1
  | .object members => membersDepth members + 1

/-- How deep the items are nested. -/
def itemsDepth : List Spelling → Nat
  | [] => 0
  | item :: more => max item.depth (itemsDepth more)

/-- How deep the values of the members are nested. -/
def membersDepth : List (Option String × Spelling) → Nat
  | [] => 0
  | (_, value) :: more => max value.depth (membersDepth more)

end

mutual

/-- Whether every number is in range and every string spells a text, down to the innermost value. -/
def IsSound : Spelling → Prop
  | .null => True
  | .bool _ => True
  | .number value => value.value?.isSome
  | .string text => text.isSome
  | .array items => AreSound items
  | .object members => MembersAreSound members

/-- Whether all items are sound. -/
def AreSound : List Spelling → Prop
  | [] => True
  | item :: more => item.IsSound ∧ AreSound more

/-- Whether all names spell texts and all values are sound. -/
def MembersAreSound : List (Option String × Spelling) → Prop
  | [] => True
  | (name, value) :: more => name.isSome ∧ value.IsSound ∧ MembersAreSound more

end

end Spelling

variable {depth : Nat}

theorem ofMembers?_cons {name : Option String} {value : Spelling}
    {more : List (Option String × Spelling)} {members : Members} :
    ofMembers? depth ((name, value) :: more) = some members ↔
      ∃ text, name = some text ∧ ∃ meant, ofSpelling? depth value = some meant ∧
        ∃ others, ofMembers? depth more = some others ∧ (text, meant) :: others = members := by
  simp [ofMembers?, Option.bind_eq_some_iff]

theorem ofItems?_cons_isSome (depth : Nat) (item : Spelling) (more : List Spelling) :
    (ofItems? depth (item :: more)).isSome ↔
      (ofSpelling? depth item).isSome ∧ (ofItems? depth more).isSome := by
  rw [ofItems?]
  cases ofSpelling? depth item <;> cases ofItems? depth more <;> simp

theorem ofMembers?_cons_isSome (depth : Nat) (name : Option String) (value : Spelling)
    (more : List (Option String × Spelling)) :
    (ofMembers? depth ((name, value) :: more)).isSome ↔
      name.isSome ∧ (ofSpelling? depth value).isSome ∧ (ofMembers? depth more).isSome := by
  rw [ofMembers?]
  cases name <;> cases ofSpelling? depth value <;> cases ofMembers? depth more <;> simp

mutual

/-- **A spelling stands for a value just if it is not nested too deep and all in it is sound.** -/
theorem ofSpelling?_isSome : ∀ (spelling : Spelling) (depth : Nat),
    (ofSpelling? depth spelling).isSome ↔ spelling.depth ≤ depth ∧ spelling.IsSound
  | .null, depth => by simp [ofSpelling?, Spelling.depth, Spelling.IsSound]
  | .bool value, depth => by simp [ofSpelling?, Spelling.depth, Spelling.IsSound]
  | .number value, depth => by simp [ofSpelling?, Spelling.depth, Spelling.IsSound]
  | .string text, depth => by simp [ofSpelling?, Spelling.depth, Spelling.IsSound]
  | .array items, 0 => by simp [ofSpelling?, Spelling.depth]
  | .array items, depth + 1 => by
    simp [ofSpelling?, Spelling.depth, Spelling.IsSound, ofItems?_isSome items depth]
  | .object members, 0 => by simp [ofSpelling?, Spelling.depth]
  | .object members, depth + 1 => by
    simp [ofSpelling?, Spelling.depth, Spelling.IsSound, ofMembers?_isSome members depth]

theorem ofItems?_isSome : ∀ (items : List Spelling) (depth : Nat),
    (ofItems? depth items).isSome ↔ Spelling.itemsDepth items ≤ depth ∧ Spelling.AreSound items
  | [], depth => by simp [ofItems?, Spelling.itemsDepth, Spelling.AreSound]
  | item :: more, depth => by
    rw [ofItems?_cons_isSome, ofSpelling?_isSome item depth, ofItems?_isSome more depth,
      Spelling.itemsDepth, Spelling.AreSound, Nat.max_le, and_and_and_comm]

theorem ofMembers?_isSome : ∀ (members : List (Option String × Spelling)) (depth : Nat),
    (ofMembers? depth members).isSome ↔
      Spelling.membersDepth members ≤ depth ∧ Spelling.MembersAreSound members
  | [], depth => by simp [ofMembers?, Spelling.membersDepth, Spelling.MembersAreSound]
  | (name, value) :: more, depth => by
    rw [ofMembers?_cons_isSome, ofSpelling?_isSome value depth, ofMembers?_isSome more depth,
      Spelling.membersDepth, Spelling.MembersAreSound, Nat.max_le, and_and_and_comm,
      and_left_comm]

end

/-- Whether a text spells a value, with any space around it. -/
def SpellsText (text : String) (spelling : Spelling) : Prop :=
  ∃ before body after, AllSpace before ∧ Spells body spelling ∧ AllSpace after ∧
    text.toList = before ++ body ++ after

/-- A text stands for what its spelling stands for. -/
theorem ofText?_of_spellsText {text : String} {spelling : Spelling}
    (h : SpellsText text spelling) : ofText? text = ofSpelling? greatestDepth spelling := by
  obtain ⟨before, body, after, hbefore, hbody, hafter, htext⟩ := h
  rw [ofText?, htext, ofText?_of_spells hbefore hbody hafter, Option.bind_some]

/-! ## Members -/

theorem ofMembers?_append {front back : List (Option String × Spelling)} {members : Members} :
    ofMembers? depth (front ++ back) = some members ↔
      ∃ first, ofMembers? depth front = some first ∧ ∃ others, ofMembers? depth back = some others ∧
        first ++ others = members := by
  induction front generalizing members with
  | nil => simp [ofMembers?]
  | cons member front ih =>
    obtain ⟨name, value⟩ := member
    rw [List.cons_append, ofMembers?_cons]
    simp only [ofMembers?_cons, ih]
    constructor
    · rintro ⟨text, hname, meant, hvalue, -, ⟨first, hfront, others, hback, rfl⟩, rfl⟩
      exact ⟨_, ⟨text, hname, meant, hvalue, first, hfront, rfl⟩, others, hback, rfl⟩
    · rintro ⟨-, ⟨text, hname, meant, hvalue, first, hfront, rfl⟩, others, hback, rfl⟩
      exact ⟨text, hname, meant, hvalue, _, ⟨first, hfront, others, hback, rfl⟩, rfl⟩

/-- A member comes with the name that is spelled. -/
theorem exists_spelled {spelled : List (Option String × Spelling)} {members : Members}
    (h : ofMembers? depth spelled = some members) {member : String × Json}
    (hmem : member ∈ members) : ∃ other ∈ spelled, other.1 = some member.1 := by
  induction spelled generalizing members with
  | nil =>
    obtain rfl : [] = members := by simpa [ofMembers?] using h
    cases hmem
  | cons first more ih =>
    obtain ⟨name, value⟩ := first
    obtain ⟨text, rfl, meant, -, others, hothers, rfl⟩ := ofMembers?_cons.mp h
    rcases List.mem_cons.mp hmem with rfl | hmem
    · exact ⟨_, List.mem_cons_self .., rfl⟩
    · obtain ⟨other, hother, hname⟩ := ih hothers hmem
      exact ⟨other, List.mem_cons_of_mem _ hother, hname⟩

/-- **The last of the members with one name is the member of the object.** -/
theorem member?_of_last {front back : List (Option String × Spelling)} {name : String}
    {value : Spelling} {object : Json}
    (h : ofSpelling? (depth + 1) (.object (front ++ (some name, value) :: back)) = some object)
    (hlast : ∀ member ∈ back, member.1 ≠ some name) :
    ∃ meant, ofSpelling? depth value = some meant ∧ object.member? name = some meant := by
  rw [ofSpelling?] at h
  obtain ⟨members, hmembers, rfl⟩ := Option.map_eq_some_iff.mp h
  obtain ⟨first, -, others, hothers, rfl⟩ := ofMembers?_append.mp hmembers
  obtain ⟨text, hname, meant, hvalue, behind, hbehind, rfl⟩ := ofMembers?_cons.mp hothers
  obtain rfl := Option.some.inj hname
  have hnone : behind.reverse.lookup name = none := by
    rw [List.lookup_eq_none_iff]
    intro member hmem
    obtain ⟨other, hother, hsame⟩ := exists_spelled hbehind (List.mem_reverse.mp hmem)
    have hne := hlast other hother
    rw [hsame] at hne
    simpa using fun hname => hne (congrArg some hname.symm)
  refine ⟨meant, hvalue, ?_⟩
  rw [member?_ofMembers, List.reverse_append, List.reverse_cons, List.lookup_append,
    List.lookup_append, hnone, Members.lookup_cons, if_pos rfl]
  rfl

/-! ## Whole numbers -/

namespace NumberSpelling

/-- The whole number that digits spell after a sign. -/
def wholeValue (negative : Bool) (digits : List Nat) : Int :=
  if negative then -(valueOfDigits 10 0 digits) else valueOfDigits 10 0 digits

theorem le_valueOfDigits (start : Nat) (digits : List Nat) :
    start ≤ valueOfDigits 10 start digits := by
  induction digits generalizing start with
  | nil => exact Nat.le_refl start
  | cons digit more ih =>
    have hmore := ih (start * 10 + digit)
    rw [valueOfDigits, List.foldl_cons, ← valueOfDigits]
    omega

/-- Zero is read to its last digit. -/
theorem fill_of_value_zero {digits : List Nat} (h : valueOfDigits 10 0 digits = 0) :
    fill 0 digits = (0, []) := by
  induction digits with
  | nil => rfl
  | cons digit more ih =>
    rw [valueOfDigits, List.foldl_cons, ← valueOfDigits] at h
    have hdigit := le_valueOfDigits (0 * 10 + digit) more
    obtain rfl : digit = 0 := by omega
    rw [fill]
    exact ih h

/-- Minus zero is zero with a sign, in double precision. -/
theorem float?_minus_zero {digits : List Nat} (h : valueOfDigits 10 0 digits = 0) :
    float? ⟨true, digits, none, none⟩ = some ⟨true, .zero⟩ := by
  have hscaled : scaled ⟨true, digits, none, none⟩ = (0, 0) := by
    simp only [scaled, fill_of_value_zero h]
    rfl
  have hmagnitude : magnitude? 0 0 = some .zero := by decide +kernel
  rw [float?, hscaled]
  simp only [hmagnitude, Option.map_some]

/-- **A whole number that 64 bits hold is read exactly**, signed or unsigned. -/
theorem value?_whole {negative : Bool} {digits : List Nat}
    (hleast : -2 ^ 63 ≤ wholeValue negative digits)
    (hgreatest : wholeValue negative digits < 2 ^ 64) :
    value? ⟨negative, digits, none, none⟩ =
      some (if negative ∧ wholeValue negative digits = 0 then .float ⟨true, .zero⟩
        else .integer (wholeValue negative digits)) := by
  have hbound : greatestWhole = 2 ^ 64 - 1 := rfl
  have hleast' : Nat.pow 2 63 = 2 ^ 63 := rfl
  cases negative with
  | false =>
    have hvalue : wholeValue false digits = valueOfDigits 10 0 digits := rfl
    rw [hvalue] at hgreatest
    have hle : valueOfDigits 10 0 digits ≤ greatestWhole := by omega
    simp [value?, hle, hvalue]
  | true =>
    have hvalue : wholeValue true digits = -(valueOfDigits 10 0 digits) := rfl
    rw [hvalue] at hleast
    by_cases hzero : valueOfDigits 10 0 digits = 0
    · simp [value?, hzero, hvalue, float?_minus_zero hzero]
    · have hpos : 0 < valueOfDigits 10 0 digits := Nat.pos_of_ne_zero hzero
      have hle : valueOfDigits 10 0 digits ≤ Nat.pow 2 63 := by omega
      simp [value?, hzero, hpos, hle, hvalue]

end NumberSpelling

end FileLore.Json
