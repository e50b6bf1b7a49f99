import FileLore.Json.Value
import Mathlib.Data.String.Basic

/-!
# Members of an object

Members are kept by their names: what has been set last under a name is what is
found under it, and setting one member leaves the others alone (`lookup_set`,
`lookup_setAll`). Members in the order of their names stay so, and since this order
is strict no name occurs twice (`sorted_setAll`). So members that are collected first and
then set in others make up the union of both (`isUnion_setAll`).
-/

namespace FileLore.Json

namespace Members

theorem lookup_cons (name : String) (value : Json) (rest : Members) (other : String) :
    ((name, value) :: rest : Members).lookup other =
      if other = name then some value else rest.lookup other := by
  rw [List.lookup_cons]
  by_cases h : other = name
  · rw [if_pos h, beq_iff_eq.mpr h]
  · rw [if_neg h, beq_eq_false_iff_ne.mpr h]

/-- What has been set is found under its name, and nothing else changes. -/
theorem lookup_set (name : String) (value : Json) (members : Members) (other : String) :
    (members.set name value).lookup other =
      if other = name then some value else members.lookup other := by
  induction members with
  | nil => exact lookup_cons name value [] other
  | cons first rest ih =>
    obtain ⟨n, v⟩ := first
    rw [set]
    by_cases hsame : n = name
    · rw [if_pos hsame, hsame, lookup_cons, lookup_cons]
      split_ifs <;> rfl
    by_cases hbefore : name < n
    · rw [if_neg hsame, if_pos hbefore, lookup_cons]
    · rw [if_neg hsame, if_neg hbefore, lookup_cons, ih, lookup_cons]
      by_cases h : other = n
      · -- The member that is passed over has another name than the one that is set.
        rw [if_pos h, if_pos h, if_neg fun hname => hsame (h.symm.trans hname)]
      · rw [if_neg h, if_neg h]

/-- What is found under a name is the last change of it or else what was there before. -/
theorem lookup_setAll (changes : Members) (name : String) :
    ∀ members : Members, (setAll changes members).lookup name =
      (changes.reverse.lookup name).or (members.lookup name) := by
  induction changes with
  | nil => exact fun members => rfl
  | cons first rest ih =>
    intro members
    obtain ⟨n, v⟩ := first
    rw [setAll, List.foldl_cons, ← setAll, ih, lookup_set, List.reverse_cons, List.lookup_append,
      lookup_cons, Option.or_assoc]
    split_ifs <;> rfl

theorem mem_keys_set {name other : String} {value : Json} {members : Members}
    (h : other ∈ (members.set name value).map (·.1)) :
    other = name ∨ other ∈ members.map (·.1) := by
  induction members with
  | nil => exact Or.inl (List.mem_singleton.mp h)
  | cons first rest ih =>
    obtain ⟨n, v⟩ := first
    rw [set] at h
    split_ifs at h with hsame hbefore
    · rw [List.map_cons, List.mem_cons] at h
      exact h.imp_right (List.mem_cons_of_mem _)
    · rw [List.map_cons, List.mem_cons] at h
      exact h
    · rw [List.map_cons, List.mem_cons] at h
      rcases h with rfl | h
      · exact Or.inr (List.mem_cons_self ..)
      · exact (ih h).imp_right (List.mem_cons_of_mem _)

/-- Setting a member keeps the names in their order. -/
theorem sorted_set (name : String) (value : Json) {members : Members}
    (h : (members.map (·.1)).Pairwise (· < ·)) :
    ((members.set name value).map (·.1)).Pairwise (· < ·) := by
  induction members with
  | nil => exact List.pairwise_singleton ..
  | cons first rest ih =>
    obtain ⟨n, v⟩ := first
    obtain ⟨hfirst, hrest⟩ := List.pairwise_cons.mp h
    rw [set]
    split_ifs with hsame hbefore
    · subst hsame
      exact h
    · refine List.pairwise_cons.mpr ⟨fun other hmem => ?_, h⟩
      rcases List.mem_cons.mp hmem with rfl | hmem
      · exact hbefore
      · exact lt_trans hbefore (hfirst other hmem)
    · refine List.pairwise_cons.mpr ⟨fun other hmem => ?_, ih hrest⟩
      rcases mem_keys_set hmem with rfl | hmem
      · exact lt_of_le_of_ne (not_lt.mp hbefore) hsame
      · exact hfirst other hmem

theorem sorted_setAll (changes : Members) :
    ∀ {members : Members}, (members.map (·.1)).Pairwise (· < ·) →
      ((setAll changes members).map (·.1)).Pairwise (· < ·) := by
  induction changes with
  | nil => exact fun h => h
  | cons first rest ih => exact fun h => ih (sorted_set first.1 first.2 h)

/-! ## Unions -/

variable {members given merged : Members} {name : String}

theorem lookup_eq_none_iff : members.lookup name = none ↔ name ∉ members.map (·.1) := by
  rw [List.lookup_eq_none_iff, List.mem_map]
  simp only [bne_iff_ne]
  constructor
  · rintro h ⟨member, hmember, rfl⟩
    exact h member hmember rfl
  · exact fun h member hmember hname => h ⟨member, hmember, hname.symm⟩

/-- Where no name occurs twice it does not matter from which end a member is looked for. -/
theorem lookup_reverse (h : (members.map (·.1)).Nodup) (name : String) :
    members.reverse.lookup name = members.lookup name := by
  induction members with
  | nil => rfl
  | cons first rest ih =>
    obtain ⟨n, v⟩ := first
    obtain ⟨hfirst, hrest⟩ := List.nodup_cons.mp h
    rw [List.reverse_cons, List.lookup_append, ih hrest, lookup_cons, lookup_cons]
    by_cases hname : name = n
    · rw [if_pos hname, if_pos hname, hname, lookup_eq_none_iff.mpr hfirst, Option.none_or]
    · rw [if_neg hname, if_neg hname, List.lookup_nil, Option.or_none]

theorem lookup_reverse_eq_none (h : name ∉ members.map (·.1)) :
    members.reverse.lookup name = none := by
  rw [lookup_eq_none_iff, List.map_reverse, List.mem_reverse]
  exact h

/-- The last member of a name is the one that is found from the back. -/
theorem lookup_reverse_cut {front back : Members} {value : Json} (h : name ∉ back.map (·.1)) :
    (front ++ (name, value) :: back).reverse.lookup name = some value := by
  rw [List.reverse_append, List.reverse_cons, List.lookup_append, List.lookup_append,
    lookup_reverse_eq_none h, Option.none_or, lookup_cons, if_pos rfl, Option.some_or]

/-- Whether members are the union of others with what is given, in which the latter wins: each name
that is given has the last value that is given for it, and every other name has what it had; there
are no further names, and no name is there twice unless it was so before. -/
structure IsUnion (given members merged : Members) : Prop where
  last : ∀ front name value back, given = front ++ (name, value) :: back →
    name ∉ back.map (·.1) → merged.lookup name = some value
  kept : ∀ name ∉ given.map (·.1), merged.lookup name = members.lookup name
  nothingElse : ∀ name ∈ merged.map (·.1), name ∈ given.map (·.1) ∨ name ∈ members.map (·.1)
  sorted : (members.map (·.1)).Pairwise (· < ·) → (merged.map (·.1)).Pairwise (· < ·)

/-- What has been collected one by one, and is then set in other members, makes up the union. -/
theorem isUnion_setAll (given members : Members) :
    IsUnion given members (setAll (setAll given []) members) := by
  have hnodup : ((setAll given []).map (·.1)).Nodup :=
    (sorted_setAll given List.Pairwise.nil).imp ne_of_lt
  have hlookup (name : String) : (setAll (setAll given []) members).lookup name =
      (given.reverse.lookup name).or (members.lookup name) := by
    rw [lookup_setAll, lookup_reverse hnodup, lookup_setAll, List.lookup_nil, Option.or_none]
  constructor
  case last =>
    rintro front name value back rfl hback
    rw [hlookup, lookup_reverse_cut hback, Option.some_or]
  case kept =>
    intro name hname
    rw [hlookup, lookup_reverse_eq_none hname, Option.none_or]
  case nothingElse =>
    intro name hname
    by_contra hno
    rw [not_or] at hno
    refine lookup_eq_none_iff.mp ?_ hname
    rw [hlookup, lookup_reverse_eq_none hno.1, lookup_eq_none_iff.mpr hno.2, Option.none_or]
  case sorted => exact sorted_setAll _

end Members

/-- Of the members that an object is made of, the last with a name is the one of this name. -/
theorem member?_ofMembers (name : String) (members : Members) :
    (ofMembers members).member? name = members.reverse.lookup name := by
  rw [ofMembers, member?, Members.lookup_setAll, List.lookup_nil, Option.or_none]

end FileLore.Json
