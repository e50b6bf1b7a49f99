import FileLore.Toml.Reader

/-!
# The range of whole numbers

Every whole number that is read from a document is one that a value can be
(`areBounded_ofText?`). A number out of range is refused where it is read, and building
up tables only moves values about, so this holds of all that is read in turn: a value,
a statement, the tables after each statement.
-/

namespace FileLore.Toml

/-- Whether no whole number in a value is too large. -/
inductive IsBounded : Toml → Prop where
  | string (value : String) : IsBounded (.string value)
  | integer {value : Int} (h : value ≤ greatestInteger) : IsBounded (.integer value)
  | float : IsBounded .float
  | boolean (value : Bool) : IsBounded (.boolean value)
  | date : IsBounded .date
  | array {items : List Toml} (h : ∀ item ∈ items, IsBounded item) : IsBounded (.array items)
  | table {origin : TableOrigin} {entries : Entries} (h : ∀ entry ∈ entries, IsBounded entry.2) :
    IsBounded (.table origin entries)
  | tables {items : List Entries} (h : ∀ entries ∈ items, ∀ entry ∈ entries, IsBounded entry.2) :
    IsBounded (.tables items)

/-- Whether no whole number in a table is too large. -/
def Entries.AreBounded (entries : Entries) : Prop := ∀ entry ∈ entries, IsBounded entry.2

variable {entries changed : Entries} {value : Toml} {text rest : List Char}

/-! ## Single values -/

theorem isBounded_integerOf? {negative : Bool} {base : Nat} {digits : List Nat}
    (h : integerOf? negative base digits = some value) : IsBounded value := by
  unfold integerOf? at h
  dsimp only at h
  split at h
  · split at h
    · cases h
      refine .integer ?_
      have hnegative : -Int.ofNat (Text.valueOfDigits base 0 digits) ≤ 0 :=
        Int.neg_nonpos_of_nonneg (Int.natCast_nonneg _)
      exact Int.le_trans hnegative (Int.natCast_nonneg _)
    · cases h
  · split at h
    · next hle =>
      cases h
      exact .integer (Int.ofNat_le.mpr hle)
    · cases h

/-- A number is read only if it is in range, whatever its base. -/
theorem isBounded_integer? (h : integer? text = some (value, rest)) : IsBounded value := by
  have hmade {negative : Bool} {base : Nat} {digits : Option (List Nat × List Char)}
      (h : (digits.bind fun found =>
        (integerOf? negative base found.1).bind fun value => some (value, found.2)) =
          some (value, rest)) : IsBounded value := by
    obtain ⟨⟨digits, more⟩, -, h⟩ := Option.bind_eq_some_iff.mp h
    obtain ⟨made, hmade, heq⟩ := Option.bind_eq_some_iff.mp h
    cases heq
    exact isBounded_integerOf? hmade
  unfold integer? at h
  dsimp only at h
  split at h
  · exact hmade h
  · exact hmade h
  · exact hmade h
  · exact hmade h

theorem isBounded_date? (h : date? text = some (value, rest)) : IsBounded value := by
  unfold date? at h
  split at h
  · split at h
    · cases h
      exact .date
    · cases h
      exact .date
  · obtain ⟨_, -, heq⟩ := Option.map_eq_some_iff.mp h
    cases heq
    exact .date

theorem isBounded_decimal? (h : decimal? text = some (value, rest)) : IsBounded value := by
  unfold decimal? at h
  obtain ⟨⟨whole, more⟩, -, h⟩ := Option.bind_eq_some_iff.mp h
  simp only [Option.pure_def, Option.ite_none_left_eq_some, Option.some.injEq, Prod.mk.injEq] at h
  obtain ⟨-, -, rfl, -⟩ := h
  exact .float

theorem isBounded_special? (h : special? text = some (value, rest)) : IsBounded value := by
  unfold special? at h
  split at h
  · cases h
    exact .float
  · cases h
    exact .float
  · cases h

theorem isBounded_scalar? (h : scalar? text = some (value, rest)) : IsBounded value := by
  unfold scalar? at h
  split at h
  · cases h
    exact .boolean true
  · cases h
    exact .boolean false
  · -- The first kind of value that can be read counts.
    have hfirst {first : Option (Toml × List Char)} {others : Unit → Option (Toml × List Char)}
        (h : first.orElse others = some (value, rest)) :
        first = some (value, rest) ∨ others () = some (value, rest) := by
      cases first with
      | none => exact Or.inr h
      | some result => exact Or.inl h
    rcases hfirst h with h | h
    · exact isBounded_date? h
    rcases hfirst h with h | h
    · exact isBounded_decimal? h
    rcases hfirst h with h | h
    · exact isBounded_special? h
    · exact isBounded_integer? h

/-! ## Tables -/

namespace Entries

theorem areBounded_nil : AreBounded [] := fun _ hentry => absurd hentry List.not_mem_nil

theorem areBounded_concat (h : entries.AreBounded) (key : String) (hvalue : IsBounded value) :
    AreBounded (entries ++ [(key, value)]) := by
  intro entry hentry
  rcases List.mem_append.mp hentry with hentry | hentry
  · exact h entry hentry
  · rw [List.mem_singleton.mp hentry]
    exact hvalue

theorem areBounded_replace (h : entries.AreBounded) (key : String)
    (hvalue : IsBounded value) : (entries.replace key value).AreBounded := by
  induction entries with
  | nil => exact h
  | cons entry entries ih =>
    obtain ⟨name, old⟩ := entry
    have hmore := ih fun other hother => h other (List.mem_cons_of_mem _ hother)
    unfold replace
    split
    · intro other hother
      rcases List.mem_cons.mp hother with rfl | hother
      · exact hvalue
      · exact h other (List.mem_cons_of_mem _ hother)
    · intro other hother
      rcases List.mem_cons.mp hother with rfl | hother
      · exact h _ (List.mem_cons_self ..)
      · exact hmore other hother

theorem AreBounded.lookup (h : entries.AreBounded) {key : String}
    (hlookup : List.lookup key entries = some value) : IsBounded value := by
  obtain ⟨before, after, heq, -⟩ := List.lookup_eq_some_iff.mp hlookup
  exact h (key, value) (heq ▸ List.mem_append_right _ (List.mem_cons_self ..))

theorem AreBounded.table (h : entries.AreBounded) {key : String} {origin : TableOrigin}
    {inner : Entries} (hlookup : List.lookup key entries = some (.table origin inner)) :
    inner.AreBounded := by
  cases h.lookup hlookup with
  | table hinner => exact hinner

theorem AreBounded.tables (h : entries.AreBounded) {key : String} {items : List Entries}
    (hlookup : List.lookup key entries = some (.tables items)) :
    ∀ inner ∈ items, AreBounded inner := by
  cases h.lookup hlookup with
  | tables hitems => exact hitems

/-- Whether a change of a table keeps its numbers in range. -/
def KeepsBounded (change : Entries → Option Entries) : Prop :=
  ∀ {entries changed : Entries}, entries.AreBounded → change entries = some changed →
    changed.AreBounded

/-- The last of several tables is changed. -/
theorem areBounded_last {change : Entries → Option Entries} (hchange : KeepsBounded change)
    (h : entries.AreBounded) {key : String} {items before : List Entries} {inner : Entries}
    (hlookup : List.lookup key entries = some (.tables items))
    (hitems : items.reverse = inner :: before)
    (hchanged : ((change inner).map fun changed =>
      entries.replace key (.tables (before.reverse ++ [changed]))) = some changed) :
    changed.AreBounded := by
  have hall := h.tables hlookup
  have hmem : ∀ other ∈ inner :: before, other ∈ items := fun other hother => by
    rw [← hitems] at hother
    exact List.mem_reverse.mp hother
  obtain ⟨made, hmade, rfl⟩ := Option.map_eq_some_iff.mp hchanged
  refine areBounded_replace h key (.tables fun other hother => ?_)
  rcases List.mem_append.mp hother with hother | hother
  · exact hall other (hmem other (List.mem_cons_of_mem _ (List.mem_reverse.mp hother)))
  · rw [List.mem_singleton.mp hother]
    exact hchange (hall inner (hmem inner (List.mem_cons_self ..))) hmade

/-- The one table that a key leads to is changed. -/
theorem areBounded_inner {change : Entries → Option Entries} (hchange : KeepsBounded change)
    (h : entries.AreBounded) {key : String} {origin : TableOrigin} {inner : Entries}
    (hlookup : List.lookup key entries = some (.table origin inner))
    (hchanged : ((change inner).map fun changed => entries.replace key (.table origin changed)) =
      some changed) : changed.AreBounded := by
  obtain ⟨made, hmade, rfl⟩ := Option.map_eq_some_iff.mp hchanged
  exact areBounded_replace h key (.table (hchange (h.table hlookup) hmade))

/-- A new table is made for a key. -/
theorem areBounded_new {change : Entries → Option Entries} (hchange : KeepsBounded change)
    (h : entries.AreBounded) {key : String} {origin : TableOrigin}
    (hchanged : ((change []).map fun inner => entries ++ [(key, .table origin inner)]) =
      some changed) : changed.AreBounded := by
  obtain ⟨made, hmade, rfl⟩ := Option.map_eq_some_iff.mp hchanged
  exact areBounded_concat h key (.table (hchange areBounded_nil hmade))

theorem keepsBounded_assign (hvalue : IsBounded value) :
    ∀ path : List String, KeepsBounded (assign value path) := by
  intro path
  induction path with
  | nil => intro entries changed _ h; cases h
  | cons key path ih =>
    intro entries changed hbounded h
    cases path with
    | nil =>
      unfold assign at h
      split at h
      · cases h
      · cases h
        exact areBounded_concat hbounded key hvalue
    | cons next path =>
      unfold assign at h
      split at h
      · exact areBounded_new ih hbounded h
      · next hlookup =>
        split at h
        · exact areBounded_inner ih hbounded hlookup h
        · cases h
      · next hlookup =>
        split at h
        · next hitems =>
          split at h
          · cases h
          · exact areBounded_last ih hbounded hlookup hitems h
        · cases h
      · cases h

theorem keepsBounded_within {change : Entries → Option Entries} (hchange : KeepsBounded change) :
    ∀ path : List String, KeepsBounded (within change path) := by
  intro path
  induction path with
  | nil => exact hchange
  | cons key path ih =>
    intro entries changed hbounded h
    unfold within at h
    split at h
    · exact areBounded_new ih hbounded h
    · cases h
    · next hlookup => exact areBounded_inner ih hbounded hlookup h
    · next hlookup =>
      split at h
      · next hitems => exact areBounded_last ih hbounded hlookup hitems h
      · cases h
    · cases h

theorem keepsBounded_openTable (key : String) : KeepsBounded (openTable key) := by
  intro entries changed hbounded h
  unfold openTable at h
  split at h
  · cases h
    exact areBounded_concat hbounded key (.table areBounded_nil)
  · next hlookup =>
    cases h
    exact areBounded_replace hbounded key (.table (hbounded.table hlookup))
  · cases h

theorem keepsBounded_openListed (key : String) : KeepsBounded (openListed key) := by
  intro entries changed hbounded h
  unfold openListed at h
  split at h
  · cases h
    refine areBounded_concat hbounded key (.tables fun inner hinner => ?_)
    rw [List.mem_singleton.mp hinner]
    exact areBounded_nil
  · next hlookup =>
    cases h
    refine areBounded_replace hbounded key (.tables fun inner hinner => ?_)
    rcases List.mem_append.mp hinner with hinner | hinner
    · exact hbounded.tables hlookup inner hinner
    · rw [List.mem_singleton.mp hinner]
      exact areBounded_nil
  · cases h

end Entries

/-! ## Values that hold others -/

/-- Values, the items of arrays and the entries of tables in braces are read in range together. -/
theorem isBounded_value? (fuel : Nat) :
    (∀ {depth : Nat} {text : List Char} {value : Toml} {rest : List Char},
      value? fuel depth text = some (value, rest) → IsBounded value) ∧
    (∀ {depth : Nat} {text : List Char} {items : List Toml} {rest : List Char},
      items? fuel depth text = some (items, rest) → ∀ item ∈ items, IsBounded item) ∧
    ∀ {depth : Nat} {before entries : Entries} {text rest : List Char}, before.AreBounded →
      entries? fuel depth before text = some (entries, rest) → entries.AreBounded := by
  induction fuel with
  | zero => exact ⟨nofun, nofun, nofun⟩
  | succ fuel ih =>
    obtain ⟨ihValue, ihItems, ihEntries⟩ := ih
    refine ⟨fun h => ?_, fun h => ?_, fun hbefore h => ?_⟩
    · unfold value? at h
      split at h
      · obtain ⟨_, -, heq⟩ := Option.map_eq_some_iff.mp h
        cases heq
        exact .string _
      · obtain ⟨_, -, heq⟩ := Option.map_eq_some_iff.mp h
        cases heq
        exact .string _
      · split at h
        · cases h
        · obtain ⟨_, hitems, heq⟩ := Option.map_eq_some_iff.mp h
          cases heq
          exact .array (ihItems hitems)
      · split at h
        · cases h
        · split at h
          · cases h
            exact .table Entries.areBounded_nil
          · obtain ⟨_, hentries, heq⟩ := Option.map_eq_some_iff.mp h
            cases heq
            exact .table (ihEntries Entries.areBounded_nil hentries)
      · exact isBounded_scalar? h
    · unfold items? at h
      split at h
      · cases h
        exact fun _ hitem => absurd hitem List.not_mem_nil
      · split at h
        · cases h
        · next hitem =>
          split at h
          · cases h
            intro item hmem
            rw [List.mem_singleton.mp hmem]
            exact ihValue hitem
          · obtain ⟨_, hitems, heq⟩ := Option.map_eq_some_iff.mp h
            cases heq
            intro item hmem
            rcases List.mem_cons.mp hmem with rfl | hmem
            · exact ihValue hitem
            · exact ihItems hitems item hmem
          · cases h
    · unfold entries? at h
      split at h
      · split at h
        · cases h
        · next hvalue =>
          split at h
          · cases h
          · next hassign =>
            have hbounded := Entries.keepsBounded_assign (ihValue hvalue) _ hbefore hassign
            split at h
            · cases h
              exact hbounded
            · exact ihEntries hbounded h
            · cases h
      · cases h

/-! ## Statements -/

/-- Whether no whole number in a statement is too large. -/
def Statement.IsBounded : Statement → Prop
  | .assignment _ value => value.IsBounded
  | _ => True

/-- Carrying out statements keeps the numbers in range. -/
theorem Entries.areBounded_carryOut :
    ∀ {statements : List Statement} {current : List String} {entries changed : Entries},
      (∀ statement ∈ statements, statement.IsBounded) → entries.AreBounded →
      entries.carryOut current statements = some changed → changed.AreBounded := by
  intro statements
  induction statements with
  | nil => intro current entries changed _ hbounded h; cases h; exact hbounded
  | cons statement statements ih =>
    intro current entries changed hall hbounded h
    have hmore : ∀ other ∈ statements, other.IsBounded := fun other hother =>
      hall other (List.mem_cons_of_mem _ hother)
    cases statement with
    | header path =>
      unfold carryOut at h
      split at h
      · cases h
      · obtain ⟨made, hmade, h⟩ := Option.bind_eq_some_iff.mp h
        exact ih hmore (keepsBounded_within (keepsBounded_openTable _) _ hbounded hmade) h
    | listedHeader path =>
      unfold carryOut at h
      split at h
      · cases h
      · obtain ⟨made, hmade, h⟩ := Option.bind_eq_some_iff.mp h
        exact ih hmore (keepsBounded_within (keepsBounded_openListed _) _ hbounded hmade) h
    | assignment path value =>
      have hvalue : value.IsBounded := hall (.assignment path value) (List.mem_cons_self ..)
      unfold carryOut at h
      obtain ⟨made, hmade, h⟩ := Option.bind_eq_some_iff.mp h
      exact ih hmore (keepsBounded_within (keepsBounded_assign hvalue path) _ hbounded hmade) h

theorem isBounded_statement? {fuel : Nat} {statement : Statement}
    (h : statement? fuel text = some (statement, rest)) : statement.IsBounded := by
  unfold statement? at h
  split at h
  · split at h
    · obtain ⟨_, -, heq⟩ := Option.map_eq_some_iff.mp h
      cases heq
      trivial
    · cases h
  · split at h
    · obtain ⟨_, -, heq⟩ := Option.map_eq_some_iff.mp h
      cases heq
      trivial
    · cases h
  · split at h
    · split at h
      · next hvalue =>
        obtain ⟨_, -, heq⟩ := Option.map_eq_some_iff.mp h
        cases heq
        exact (isBounded_value? fuel).1 hvalue
      · cases h
    · cases h

theorem isBounded_statements? {width : Nat} :
    ∀ {fuel : Nat} {text : List Char} {statements : List Statement},
      statements? width fuel text = some statements →
      ∀ statement ∈ statements, statement.IsBounded := by
  intro fuel
  induction fuel with
  | zero => intro text statements h; cases h
  | succ fuel ih =>
    intro text statements h
    unfold statements? at h
    split at h
    · cases h
      exact fun _ hmem => absurd hmem List.not_mem_nil
    · split at h
      · split at h
        · exact ih h
        · cases h
      · split at h
        · next hstatement =>
          obtain ⟨_, hmore, rfl⟩ := Option.map_eq_some_iff.mp h
          intro statement hmem
          rcases List.mem_cons.mp hmem with rfl | hmem
          · exact isBounded_statement? hstatement
          · exact ih hmore statement hmem
        · cases h

/-- **No whole number in a document that can be read is too large.** -/
theorem areBounded_ofText? {document : String} (h : ofText? document = some entries) :
    entries.AreBounded := by
  obtain ⟨statements, hstatements, hcarry⟩ := Option.bind_eq_some_iff.mp h
  exact Entries.areBounded_carryOut (isBounded_statements? hstatements) Entries.areBounded_nil
    hcarry

end FileLore.Toml
