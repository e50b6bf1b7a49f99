import FileLore.Artifact.Context
import Mathlib.Data.List.Basic
import Mathlib.Logic.Relation

/-!
# Contexts from other tools

Tools that share the store write a context as they like: the members of the object in any
order, members of their own among them, a field that is empty as null, as an empty value
or not at all. None of this makes a difference to what is read (`read_edited`): an edit
of the members leaves each field what it is (`fieldIn_edit`), so any number of edits does
(`Reads.edits`). What cannot be taken for any spelling of a field makes the whole text
unreadable (`Unreadable`), whatever else there is in it.

The members are those that the reader finds in the text, and it finds those that the
grammar derives, however the text is spaced and escaped (`Json.ofText?_of_spells`).

The one thing that members of other names owe the reader is a name: a name that spells
half a character is no text, and an object with such a name is refused
(`not_read_of_halfName`).
-/

namespace FileLore.Context

open Json (Spelling)

variable {α : Type} {empty : α} {read? : Spelling → Option α} {name other text : String}
  {value : Spelling} {members others front back : List (Option String × Spelling)} {found : α}
  {context : Context}

/-! ## The members of one name -/

open Json.Spelling (valuesOf single?)

theorem valuesOf_append (name : String) (front back : List (Option String × Spelling)) :
    valuesOf name (front ++ back) = valuesOf name front ++ valuesOf name back := by
  rw [valuesOf, List.filter_append, List.map_append, valuesOf, valuesOf]

theorem valuesOf_cons_self (name : String) (value : Spelling)
    (back : List (Option String × Spelling)) :
    valuesOf name ((some name, value) :: back) = value :: valuesOf name back := by
  simp [valuesOf]

theorem valuesOf_cons_ne (h : other ≠ name) (value : Spelling)
    (back : List (Option String × Spelling)) :
    valuesOf name ((some other, value) :: back) = valuesOf name back := by
  rw [valuesOf, List.filter_cons_of_neg (by simpa using h), valuesOf]

theorem valuesOf_eq_nil_iff :
    valuesOf name members = [] ↔ ∀ member ∈ members, member.1 ≠ some name := by
  rw [valuesOf, List.map_eq_nil_iff, List.filter_eq_nil_iff]
  simp

theorem valuesOf_perm (h : members.Perm others) :
    (valuesOf name members).Perm (valuesOf name others) :=
  (h.filter _).map _

/-- A field is there once if its value is the only one. -/
theorem single?_append_cons {before after : List Spelling} {field : Option Spelling} :
    single? (before ++ value :: after) = some field ↔
      before ++ after = [] ∧ some value = field := by
  cases before with
  | nil => cases after <;> simp [single?]
  | cons first more => cases more <;> simp [single?]

/-- In which order the members stand does not matter to a field that is there at most once, and one
that is there more often cannot be read in any order. -/
theorem single?_perm {values changed : List Spelling} (h : values.Perm changed) :
    single? values = single? changed := by
  match values, h with
  | [], h => rw [h.nil_eq]
  | [value], h => rw [h.singleton_eq]
  | first :: second :: more, h =>
    obtain ⟨first', second', more', rfl⟩ : ∃ first' second' more',
        changed = first' :: second' :: more' := by
      match changed, h.length_eq with
      | first' :: second' :: more', _ => exact ⟨first', second', more', rfl⟩
    rfl

/-! ## Fields -/

/-- What is read of the field called `name` in an object with these members. -/
def fieldIn (empty : α) (read? : Spelling → Option α) (name : String)
    (members : List (Option String × Spelling)) : Option α :=
  (single? (valuesOf name members)).bind (fieldOr empty read?)

theorem fieldIn_perm (h : members.Perm others) :
    fieldIn empty read? name members = fieldIn empty read? name others := by
  rw [fieldIn, single?_perm (valuesOf_perm h), fieldIn]

/-- A field that is not there is empty. -/
theorem fieldIn_absent (h : valuesOf name members = []) :
    fieldIn empty read? name members = some empty := by
  rw [fieldIn, h]
  rfl

/-- A field is what its member gives if this member is the only one. -/
theorem fieldIn_cut : fieldIn empty read? name (front ++ (some name, value) :: back) = some found ↔
    valuesOf name (front ++ back) = [] ∧ fieldOr empty read? (some value) = some found := by
  rw [fieldIn, valuesOf_append, valuesOf_cons_self, Option.bind_eq_some_iff, valuesOf_append]
  simp only [single?_append_cons]
  constructor
  · rintro ⟨field, ⟨hnone, rfl⟩, hfield⟩
    exact ⟨hnone, hfield⟩
  · rintro ⟨hnone, hfield⟩
    exact ⟨_, ⟨hnone, rfl⟩, hfield⟩

theorem fieldIn_cut_ne (h : other ≠ name) :
    fieldIn empty read? name (front ++ (some other, value) :: back) =
      fieldIn empty read? name (front ++ back) := by
  rw [fieldIn, valuesOf_append, valuesOf_cons_ne h, ← valuesOf_append, fieldIn]

/-- The fields that hold a text. -/
def textFields : List String := ["file", "timestamp"]

/-- The fields that hold a list of texts. -/
def listFields : List String := ["imports", "exports"]

/-- Whether the members of an object make up a context: all have names, and each field is there at
most once and can be read. -/
structure Reads (members : List (Option String × Spelling)) (context : Context) : Prop where
  named : ∀ member ∈ members, member.1.isSome
  file : fieldIn "" (·.text?) "file" members = some context.file
  imports : fieldIn [] (·.texts?) "imports" members = some context.imports
  exports : fieldIn [] (·.texts?) "exports" members = some context.exports
  timestamp : fieldIn "" (·.text?) "timestamp" members = some context.timestamp

/-- **The text of an object is read field by field.** -/
theorem ofText?_eq_some_iff (h : Spelling.ofText? text.toList = some (.object members)) :
    ofText? text = some context ↔ Reads members context := by
  rw [ofText?, h]
  simp only [Option.bind_eq_bind, Option.bind_some, Spelling.fields?, fieldNames]
  by_cases hnamed : members.all (·.1.isSome) = true
  · rw [if_pos hnamed]
    rw [List.all_eq_true] at hnamed
    simp only [List.mapM_cons, List.mapM_nil, Option.bind_eq_bind, Option.pure_def]
    constructor
    · intro hread
      simp only [Option.bind_eq_some_iff, Option.some.injEq] at hread
      obtain ⟨-, ⟨file, hfile, -, ⟨imports, himports, -, ⟨exports, hexports, -,
        ⟨timestamp, htimestamp, -, rfl, rfl⟩, rfl⟩, rfl⟩, rfl⟩, hread⟩ := hread
      simp only [Option.bind_eq_some_iff, Option.some.injEq] at hread
      obtain ⟨_, hfile', _, himports', _, hexports', _, htimestamp', rfl⟩ := hread
      exact
        { named := hnamed
          file := Option.bind_eq_some_iff.mpr ⟨file, hfile, hfile'⟩
          imports := Option.bind_eq_some_iff.mpr ⟨imports, himports, himports'⟩
          exports := Option.bind_eq_some_iff.mpr ⟨exports, hexports, hexports'⟩
          timestamp := Option.bind_eq_some_iff.mpr ⟨timestamp, htimestamp, htimestamp'⟩ }
    · intro hreads
      obtain ⟨file, hfile, hfile'⟩ := Option.bind_eq_some_iff.mp hreads.file
      obtain ⟨imports, himports, himports'⟩ := Option.bind_eq_some_iff.mp hreads.imports
      obtain ⟨exports, hexports, hexports'⟩ := Option.bind_eq_some_iff.mp hreads.exports
      obtain ⟨timestamp, htimestamp, htimestamp'⟩ := Option.bind_eq_some_iff.mp hreads.timestamp
      simp only [hfile, himports, hexports, htimestamp, hfile', himports', hexports', htimestamp',
        Option.bind_some]
  · rw [if_neg hnamed]
    rw [List.all_eq_true] at hnamed
    exact ⟨nofun, fun hreads => absurd hreads.named hnamed⟩

/-! ## Edits -/

/-- Whether a value of a field says that the field is empty: null does for any field, the empty text
and the empty list do for the fields of their kind. -/
inductive StandsForEmpty : String → Spelling → Prop where
  | null {name : String} (h : name ∈ fieldNames) : StandsForEmpty name .null
  | text {name : String} (h : name ∈ textFields) : StandsForEmpty name (.string (some ""))
  | list {name : String} (h : name ∈ listFields) : StandsForEmpty name (.array [])

/-- A change to the members of an object that leaves the context alone. Fields that are empty may be
spelled another way, left out or put in; other members may be added, whatever they hold. -/
inductive Edit : List (Option String × Spelling) → List (Option String × Spelling) → Prop where
  | reorder {members others : List (Option String × Spelling)} (h : members.Perm others) :
    Edit members others
  | respell (front back : List (Option String × Spelling)) {name : String} {value other : Spelling}
    (h : StandsForEmpty name value) (hother : StandsForEmpty name other) :
    Edit (front ++ (some name, value) :: back) (front ++ (some name, other) :: back)
  | leaveOut (front back : List (Option String × Spelling)) {name : String} {value : Spelling}
    (h : StandsForEmpty name value) : Edit (front ++ (some name, value) :: back) (front ++ back)
  | putIn (front back : List (Option String × Spelling)) {name : String} {value : Spelling}
    (h : StandsForEmpty name value) (habsent : ∀ member ∈ front ++ back, member.1 ≠ some name) :
    Edit (front ++ back) (front ++ (some name, value) :: back)
  | addUnknown (front back : List (Option String × Spelling)) {name : String} (value : Spelling)
    (h : name ∉ fieldNames) : Edit (front ++ back) (front ++ (some name, value) :: back)

/-- A member with a name makes no difference to whether all have one. -/
theorem named_cut : (∀ member ∈ front ++ (some name, value) :: back, member.1.isSome) ↔
    ∀ member ∈ front ++ back, member.1.isSome := by
  simp only [List.forall_mem_append, List.forall_mem_cons, Option.isSome_some, true_and]

theorem Edit.named (hedit : Edit members others) (h : ∀ member ∈ members, member.1.isSome) :
    ∀ member ∈ others, member.1.isSome := by
  cases hedit with
  | reorder hperm => exact fun member hmember => h member (hperm.mem_iff.mpr hmember)
  | respell => exact named_cut.mpr (named_cut.mp h)
  | leaveOut => exact named_cut.mp h
  | putIn | addUnknown => exact named_cut.mpr h

/-- **An edit leaves each field what it is**, if all that says of it that it is empty is read as
that. -/
theorem fieldIn_edit (hname : name ∈ fieldNames)
    (hempty : ∀ value, StandsForEmpty name value → fieldOr empty read? (some value) = some empty)
    (hedit : Edit members others) (h : fieldIn empty read? name members = some found) :
    fieldIn empty read? name others = some found := by
  -- If the edited member is this field's, it is the only one, so the field is and stays empty.
  cases hedit with
  | reorder hperm => rwa [← fieldIn_perm hperm]
  | @respell front back edited value other hvalue hother =>
    by_cases hsame : edited = name
    · subst hsame
      obtain ⟨hnone, hfound⟩ := fieldIn_cut.mp h
      exact fieldIn_cut.mpr ⟨hnone, by rw [hempty other hother, ← hfound, hempty value hvalue]⟩
    · rwa [fieldIn_cut_ne hsame] at h ⊢
  | @leaveOut front back edited value hvalue =>
    by_cases hsame : edited = name
    · subst hsame
      obtain ⟨hnone, hfound⟩ := fieldIn_cut.mp h
      rw [fieldIn_absent hnone, ← hfound, hempty value hvalue]
    · rwa [fieldIn_cut_ne hsame] at h
  | @putIn front back edited value hvalue habsent =>
    by_cases hsame : edited = name
    · subst hsame
      have hnone := valuesOf_eq_nil_iff.mpr habsent
      rw [fieldIn_absent hnone] at h
      exact fieldIn_cut.mpr ⟨hnone, by rw [hempty value hvalue, h]⟩
    · rwa [fieldIn_cut_ne hsame]
  | @addUnknown front back added value hunknown =>
    have hne : added ≠ name := by
      rintro rfl
      exact hunknown hname
    rwa [fieldIn_cut_ne hne]

theorem fieldOr_emptyText (hname : name ∈ textFields) (h : StandsForEmpty name value) :
    fieldOr "" (·.text?) (some value) = some "" := by
  cases h with
  | null | text => rfl
  | list hlist =>
    have hdisjoint : ∀ name ∈ textFields, name ∉ listFields := by decide
    exact absurd hlist (hdisjoint _ hname)

theorem fieldOr_emptyList (hname : name ∈ listFields) (h : StandsForEmpty name value) :
    fieldOr [] (·.texts?) (some value) = some [] := by
  cases h with
  | null | list => rfl
  | text htext =>
    have hdisjoint : ∀ name ∈ listFields, name ∉ textFields := by decide
    exact absurd htext (hdisjoint _ hname)

/-- An edit leaves the context what it is. -/
theorem Reads.edit (hedit : Edit members others) (h : Reads members context) :
    Reads others context where
  named := hedit.named h.named
  file := fieldIn_edit (by decide) (fun _ => fieldOr_emptyText (by decide)) hedit h.file
  imports := fieldIn_edit (by decide) (fun _ => fieldOr_emptyList (by decide)) hedit h.imports
  exports := fieldIn_edit (by decide) (fun _ => fieldOr_emptyList (by decide)) hedit h.exports
  timestamp := fieldIn_edit (by decide) (fun _ => fieldOr_emptyText (by decide)) hedit h.timestamp

/-- Any number of edits leaves the context what it is. -/
theorem Reads.edits (hedits : Relation.ReflTransGen Edit members others)
    (h : Reads members context) : Reads others context := by
  induction hedits with
  | refl => exact h
  | tail _ hedit ih => exact ih.edit hedit

/-! ## What cannot be read -/

/-- Whether something about a field keeps an object from being a context: a value of another kind
that is not null, an item of a list that is no string (as null is none), or a second member of the
same name. -/
inductive Unreadable (members : List (Option String × Spelling)) : Prop where
  | noText {name : String} {value : Spelling} (hname : name ∈ textFields)
    (hmember : (some name, value) ∈ members) (hnull : value ≠ .null)
    (hkind : ∀ text, value ≠ .string text)
  | noList {name : String} {value : Spelling} (hname : name ∈ listFields)
    (hmember : (some name, value) ∈ members) (hnull : value ≠ .null)
    (hkind : ∀ items, value ≠ .array items)
  | noTextItem {name : String} {items : List Spelling} {item : Spelling} (hname : name ∈ listFields)
    (hmember : (some name, .array items) ∈ members) (hitem : item ∈ items)
    (hkind : ∀ text, item ≠ .string text)
  | repeated {name : String} {value other : Spelling}
    {front middle back : List (Option String × Spelling)} (hname : name ∈ fieldNames)
    (hmembers : members = front ++ (some name, value) :: (middle ++ (some name, other) :: back))

/-- A field that can be read is what any member of its name gives. -/
theorem fieldIn_of_mem (hmember : (some name, value) ∈ members)
    (h : fieldIn empty read? name members = some found) :
    fieldOr empty read? (some value) = some found := by
  obtain ⟨front, back, rfl⟩ := List.append_of_mem hmember
  exact (fieldIn_cut.mp h).2

theorem fieldOr_of_ne_null (h : value ≠ .null) :
    fieldOr empty read? (some value) = read? value := by
  cases value with
  | null => exact absurd rfl h
  | bool | number | string | array | object => rfl

theorem text?_eq_none (h : ∀ text, value ≠ .string text) : value.text? = none := by
  cases value with
  | string text => exact absurd rfl (h text)
  | null | bool | number | array | object => rfl

theorem texts?_eq_none (h : ∀ items, value ≠ .array items) : value.texts? = none := by
  cases value with
  | array items => exact absurd rfl (h items)
  | null | bool | number | string | object => rfl

/-- A list with an item that is no string is no list of texts. -/
theorem texts?_of_noTextItem {items : List Spelling} {item : Spelling} (hitem : item ∈ items)
    (hkind : ∀ text, item ≠ .string text) : (Spelling.array items).texts? = none := by
  rw [Spelling.texts?]
  induction items with
  | nil => cases hitem
  | cons first more ih =>
    rw [List.mapM_cons]
    rcases List.mem_cons.mp hitem with rfl | hmore
    · rw [text?_eq_none hkind]
      rfl
    · rw [ih hmore]
      cases first.text? <;> rfl

theorem Reads.exists_text (h : Reads members context) (hname : name ∈ textFields) :
    ∃ text, fieldIn "" (·.text?) name members = some text := by
  rcases List.mem_pair.mp hname with rfl | rfl
  · exact ⟨_, h.file⟩
  · exact ⟨_, h.timestamp⟩

theorem Reads.exists_list (h : Reads members context) (hname : name ∈ listFields) :
    ∃ texts, fieldIn [] (·.texts?) name members = some texts := by
  rcases List.mem_pair.mp hname with rfl | rfl
  · exact ⟨_, h.imports⟩
  · exact ⟨_, h.exports⟩

/-- What stands around a member of a context has no member of the same name. -/
theorem Reads.alone (h : Reads (front ++ (some name, value) :: back) context)
    (hname : name ∈ fieldNames) : valuesOf name (front ++ back) = [] := by
  have hkinds : ∀ name ∈ fieldNames, name ∈ textFields ∨ name ∈ listFields := by decide
  rcases hkinds name hname with htext | hlist
  · obtain ⟨text, hfield⟩ := h.exists_text htext
    exact (fieldIn_cut.mp hfield).1
  · obtain ⟨texts, hfield⟩ := h.exists_list hlist
    exact (fieldIn_cut.mp hfield).1

theorem Unreadable.not_reads (h : Unreadable members) : ¬Reads members context := by
  intro hreads
  cases h with
  | noText hname hmember hnull hkind =>
    obtain ⟨text, hfield⟩ := hreads.exists_text hname
    have hvalue := fieldIn_of_mem hmember hfield
    rw [fieldOr_of_ne_null hnull, text?_eq_none hkind] at hvalue
    cases hvalue
  | noList hname hmember hnull hkind =>
    obtain ⟨texts, hfield⟩ := hreads.exists_list hname
    have hvalue := fieldIn_of_mem hmember hfield
    rw [fieldOr_of_ne_null hnull, texts?_eq_none hkind] at hvalue
    cases hvalue
  | @noTextItem name items item hname hmember hitem hkind =>
    obtain ⟨texts, hfield⟩ := hreads.exists_list hname
    have hvalue := fieldIn_of_mem hmember hfield
    have hnull : Spelling.array items ≠ .null := nofun
    rw [fieldOr_of_ne_null hnull, texts?_of_noTextItem hitem hkind] at hvalue
    cases hvalue
  | @repeated name value other front middle back hname hmembers =>
    subst hmembers
    have hother : (some name, other) ∈ front ++ (middle ++ (some name, other) :: back) := by simp
    exact valuesOf_eq_nil_iff.mp (hreads.alone hname) _ hother rfl

/-- **What is empty, null or missing is the same**, and neither the order of the members nor members
of other names make a difference: the text of an object that is read as a context is read as the
same context after any edits. A field of the wrong kind, an item that is no string or a field that
is there twice makes the text unreadable. -/
theorem read_edited (hspelled : Spelling.ofText? text.toList = some (.object members)) :
    (∀ context, ofText? text = some context → ∀ edited others,
      Spelling.ofText? edited.toList = some (.object others) →
      Relation.ReflTransGen Edit members others → ofText? edited = some context) ∧
    (Unreadable members → ofText? text = none) := by
  constructor
  · intro context hread edited others hedited hedits
    exact (ofText?_eq_some_iff hedited).mpr (((ofText?_eq_some_iff hspelled).mp hread).edits hedits)
  · intro hunreadable
    rw [Option.eq_none_iff_forall_ne_some]
    intro context hread
    exact hunreadable.not_reads ((ofText?_eq_some_iff hspelled).mp hread)

/-- A text that says of two fields that they are empty and leaves out a third. -/
def emptySpelled : String :=
  "\x7b\"file\":null,\"exports\":[\"b\",\"a, b\"],\"imports\":[]\x7d"

/-- A text that says so of the third and leaves out the others, and has a member of its own. -/
def emptyLeftOut : String :=
  "\x7b\"timestamp\":\"\",\"exports\":[\"b\",\"a, b\"],\"tool\":\x7b\"file\":[null]\x7d\x7d"

/-- The exports that both have. -/
def exportsSpelled : Spelling := .array [.string (some "b"), .string (some "a, b")]

theorem emptySpelled_spelled : Spelling.ofText? emptySpelled.toList = some (.object
    [(some "file", .null), (some "exports", exportsSpelled), (some "imports", .array [])]) := by
  cbv

theorem emptyLeftOut_spelled : Spelling.ofText? emptyLeftOut.toList = some (.object
    [(some "timestamp", .string (some "")), (some "exports", exportsSpelled),
      (some "tool", .object [(some "file", .array [.null])])]) := by
  cbv

theorem edits_emptyLeftOut : Relation.ReflTransGen Edit
    [(some "file", .null), (some "exports", exportsSpelled), (some "imports", .array [])]
    [(some "timestamp", .string (some "")), (some "exports", exportsSpelled),
      (some "tool", .object [(some "file", .array [.null])])] := by
  -- Both fields go, the other two members come, and all are turned around.
  refine .head (.leaveOut [] [(some "exports", exportsSpelled), (some "imports", .array [])]
    (.null (show "file" ∈ fieldNames by decide))) ?_
  refine .head (.leaveOut [(some "exports", exportsSpelled)] []
    (.list (show "imports" ∈ listFields by decide))) ?_
  refine .head (.putIn [(some "exports", exportsSpelled)] []
    (.text (show "timestamp" ∈ textFields by decide)) (by simp)) ?_
  refine .head (.addUnknown [] _ (.object [(some "file", .array [.null])])
    (show "tool" ∉ fieldNames by decide)) ?_
  exact .single (.reorder (List.reverse_perm _).symm)

/-- One text is read as the other, and null in a list makes a text unreadable. -/
theorem read_edited_emptyLeftOut :
    ofText? emptySpelled = some ⟨"", [], ["b", "a, b"], ""⟩ ∧
      ofText? emptyLeftOut = some ⟨"", [], ["b", "a, b"], ""⟩ ∧
      ofText? "\x7b\"imports\":[\"a\",null]\x7d" = none := by
  have hread : ofText? emptySpelled = some ⟨"", [], ["b", "a, b"], ""⟩ := by decide +kernel
  have hnull : Spelling.ofText? "\x7b\"imports\":[\"a\",null]\x7d".toList =
      some (.object [(some "imports", .array [.string (some "a"), .null])]) := by cbv
  refine ⟨hread, ?_, ?_⟩
  · exact (read_edited emptySpelled_spelled).1 _ hread _ _ emptyLeftOut_spelled edits_emptyLeftOut
  · exact (read_edited hnull).2
      (.noTextItem (show "imports" ∈ listFields by decide) List.mem_cons_self
        (List.mem_cons_of_mem _ List.mem_cons_self) (fun _ => nofun))

/-- **Not every member of another name can be added**: one whose name is half a character makes the
text unreadable. -/
theorem not_read_of_halfName :
    ¬∀ (text edited : String) (members : List (Option String × Spelling)) (name : Option String)
      (value : Spelling) (context : Context),
      Spelling.ofText? text.toList = some (.object members) →
      Spelling.ofText? edited.toList = some (.object ((name, value) :: members)) →
      (∀ field ∈ fieldNames, name ≠ some field) → ofText? text = some context →
        ofText? edited = some context := by
  intro h
  have hempty : Spelling.ofText? "\x7b\x7d".toList = some (.object []) := by cbv
  have hhalf : Spelling.ofText? "\x7b\"\\ud800\":0\x7d".toList =
      some (.object [(none, .number ⟨false, [0], none, none⟩)]) := by
    cbv
  have hread := h _ _ _ _ _ ⟨"", [], [], ""⟩ hempty hhalf (fun _ _ => nofun) (by decide +kernel)
  exact absurd hread (by decide +kernel)

end FileLore.Context
