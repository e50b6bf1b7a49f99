import FileLore.Proofs.Toml.Values
import FileLore.Text.Search
import Mathlib.Data.List.Forall2

/-!
# Documents are read as they were written

A document of sections with settings is read as the sections that it was written from
(`ofText?_documentText`): each has a name of its own, and in each every setting has.
Names are bare, so they need no quotes.

Reading goes in two steps. The lines become statements, one for each header and
setting (`ReadsAs`), whatever the lines before them; the empty lines between sections
leave nothing. Carrying the statements out puts each section in the place of a table
that stands behind those before it (`carryOut_sections`): nothing is defined twice,
so nothing is refused.
-/

namespace FileLore.Toml

open Text

/-! ## Keys -/

/-- Whether a name can be a key without quotes. -/
structure IsBareName (name : String) : Prop where
  ne_nil : name.toList ≠ []
  bare : ∀ c ∈ name.toList, isBare c = true

instance (name : String) : Decidable (IsBareName name) :=
  decidable_of_iff (name.toList ≠ [] ∧ name.toList.all isBare = true)
    ⟨fun h => ⟨h.1, List.all_eq_true.mp h.2⟩, fun h => ⟨h.ne_nil, List.all_eq_true.mpr h.bare⟩⟩

/-- Whether a bare name ends in front of a text, and the key with it. -/
structure EndsKey (rest : List Char) : Prop where
  notBare : ∀ c ∈ rest.head?, isBare c = false
  noDot : (skipSpace rest).head? ≠ some '.'

theorem keyPart?_bare {name : String} (h : IsBareName name) {rest : List Char}
    (hrest : ∀ c ∈ rest.head?, isBare c = false) :
    keyPart? (name.toList ++ rest) = some (name.toList, rest) := by
  have htake : (name.toList ++ rest).takeWhile isBare = name.toList := by
    rw [List.takeWhile_append_of_pos h.bare]
    cases rest with
    | nil => exact List.append_nil _
    | cons c more =>
      have hc : ¬isBare c = true := by rw [hrest c rfl]; exact Bool.false_ne_true
      rw [List.takeWhile_cons_of_neg hc, List.append_nil]
  obtain ⟨c, more, hname⟩ := List.exists_cons_of_ne_nil h.ne_nil
  have hc : isBare c = true := h.bare c (hname ▸ List.mem_cons_self ..)
  unfold keyPart?
  split
  · next heq => rw [hname] at heq; cases heq; cases hc
  · next heq => rw [hname] at heq; cases heq; cases hc
  · dsimp only
    rw [htake, List.drop_left' rfl]
    exact if_neg (by simpa using h.ne_nil)

theorem skipSpace_bare {name : String} (h : IsBareName name) (rest : List Char) :
    skipSpace (name.toList ++ rest) = name.toList ++ rest := by
  obtain ⟨c, more, hname⟩ := List.exists_cons_of_ne_nil h.ne_nil
  have hc : isBare c = true := h.bare c (hname ▸ List.mem_cons_self ..)
  rw [hname]
  refine skipSpace_cons ?_ _
  by_contra hspace
  rw [Bool.not_eq_false, Bool.or_eq_true, beq_iff_eq, beq_iff_eq] at hspace
  rcases hspace with rfl | rfl
  · cases hc
  · cases hc

/-- A bare name is read as a key of one part. -/
theorem key?_bare {name : String} (h : IsBareName name) {rest : List Char} (hrest : EndsKey rest) :
    key? (name.toList ++ rest) = some ([name], skipSpace rest) := by
  have hparts (fuel : Nat) :
      keyParts? (fuel + 1) (name.toList ++ rest) = some ([name], skipSpace rest) := by
    unfold keyParts?
    rw [skipSpace_bare h, keyPart?_bare h hrest.notBare]
    dsimp only
    split
    · next heq => exact absurd (congrArg List.head? heq) hrest.noDot
    · rw [String.ofList_toList]
  unfold key?
  rw [hparts]
  rfl

/-! ## Statements -/

/-- Whether the lines of a text are read as some statements. -/
def ReadsAs (width : Nat) (text : List Char) (statements : List Statement) : Prop :=
  ∀ fuel, text.length < fuel → statements? width fuel text = some statements

variable {width : Nat} {rest : List Char} {others : List Statement}

theorem readsAs_nil (width : Nat) : ReadsAs width [] [] := by
  intro fuel hfuel
  obtain ⟨fuel, rfl⟩ := Nat.exists_eq_succ_of_ne_zero (Nat.ne_zero_of_lt hfuel)
  rfl

/-- An empty line is no statement. -/
theorem ReadsAs.emptyLine (h : ReadsAs width rest others) :
    ReadsAs width ('\n' :: rest) others := by
  intro fuel hfuel
  obtain ⟨fuel, rfl⟩ := Nat.exists_eq_succ_of_ne_zero (Nat.ne_zero_of_lt hfuel)
  have hafter : afterLine? ('\n' :: rest) = some rest := rfl
  unfold statements?
  rw [skipSpace_cons rfl]
  dsimp only
  rw [hafter]
  exact h fuel (Nat.lt_of_succ_lt_succ hfuel)

/-- A character that neither stands before a statement nor shows that there is none. -/
def BeginsStatement (c : Char) : Prop := c ∉ [' ', '\t', '#', '\n', '\r']

/-- A line that is a statement is followed by the statements of the other lines. -/
theorem ReadsAs.line (h : ReadsAs width rest others) {c : Char} (hc : BeginsStatement c)
    (more : List Char) {statement : Statement}
    (hread : statement? width (c :: (more ++ rest)) = some (statement, rest)) :
    ReadsAs width (c :: (more ++ rest)) (statement :: others) := by
  intro fuel hfuel
  obtain ⟨fuel, rfl⟩ := Nat.exists_eq_succ_of_ne_zero (Nat.ne_zero_of_lt hfuel)
  have hmore : statements? width fuel rest = some others := by
    refine h fuel ?_
    rw [List.length_cons, List.length_append] at hfuel
    omega
  simp only [BeginsStatement, List.mem_cons, List.not_mem_nil, or_false, not_or] at hc
  obtain ⟨hspace, htab, hcomment, hline, hreturn⟩ := hc
  unfold statements?
  rw [skipSpace_cons (by simp [hspace, htab])]
  dsimp only
  rw [if_neg (by simp [hcomment, hline, hreturn]), hread]
  dsimp only
  rw [hmore]
  rfl

theorem beginsStatement_of_isBare {c : Char} (h : isBare c = true) : BeginsStatement c := by
  intro hmem
  simp only [List.mem_cons, List.not_mem_nil, or_false] at hmem
  rcases hmem with rfl | rfl | rfl | rfl | rfl <;> cases h

/-- A header is read as one, up to the end of its line. -/
theorem statement?_header {name : String} (h : IsBareName name) (fuel : Nat) (rest : List Char) :
    statement? fuel ('[' :: (name.toList ++ ']' :: '\n' :: rest)) =
      some (.header [name], rest) := by
  have hends : EndsKey (']' :: '\n' :: rest) :=
    ⟨fun c hc => by cases hc; rfl, by rw [skipSpace_cons rfl]; nofun⟩
  have hkey := key?_bare h hends
  rw [skipSpace_cons rfl] at hkey
  obtain ⟨c, more, hname⟩ := List.exists_cons_of_ne_nil h.ne_nil
  have hc : isBare c = true := h.bare c (hname ▸ List.mem_cons_self ..)
  unfold statement?
  split
  · next heq =>
    rw [hname] at heq
    obtain rfl := (List.cons.inj (List.cons.inj heq).2).1
    cases hc
  · next heq =>
    rw [← (List.cons.inj heq).2, hkey]
    rfl
  · next hnot => exact absurd rfl (hnot _)

/-- A setting is read as one, up to the end of its line. -/
theorem statement?_setting {key : String} (h : IsBareName key) {shown : List Char} {value : Toml}
    (hvalue : IsWritten shown value) (fuel : Nat) (rest : List Char) :
    statement? (fuel + 1) (key.toList ++ ' ' :: '=' :: ' ' :: (shown ++ '\n' :: rest)) =
      some (.assignment [key] value, rest) := by
  have hends : EndsKey (' ' :: '=' :: ' ' :: (shown ++ '\n' :: rest)) :=
    ⟨fun c hc => by cases hc; rfl, nofun⟩
  have hkey := key?_bare h hends
  have hequals : skipSpace (' ' :: '=' :: ' ' :: (shown ++ '\n' :: rest)) =
      '=' :: ' ' :: (shown ++ '\n' :: rest) := rfl
  have hspace : skipSpace (' ' :: (shown ++ '\n' :: rest)) =
      skipSpace (shown ++ '\n' :: rest) := rfl
  have hread := hvalue fuel (depthLimit - 1) rest
  obtain ⟨c, more, hname⟩ := List.exists_cons_of_ne_nil h.ne_nil
  have hc : isBare c = true := h.bare c (hname ▸ List.mem_cons_self ..)
  unfold statement?
  split
  · next heq => rw [hname] at heq; obtain rfl := (List.cons.inj heq).1; cases hc
  · next heq => rw [hname] at heq; obtain rfl := (List.cons.inj heq).1; cases hc
  · simp only [hkey, hequals, hspace, hread]
    rfl

/-! ## Sections -/

/-- What a section holds: its name and the values of its settings. -/
abbrev Content := String × Entries

/-- Whether a setting is written so that it gives its value back under its key. -/
structure ShowsEntry (setting : String × List Char) (entry : String × Toml) : Prop where
  key_eq : setting.1 = entry.1
  key_bare : IsBareName entry.1
  value : IsWritten setting.2 entry.2

/-- Whether a section is written so that it gives its content back. -/
structure Section.Shows (part : Section) (content : Content) : Prop where
  name_eq : part.name = content.1
  name_bare : IsBareName content.1
  settings : List.Forall₂ ShowsEntry part.settings content.2

/-- The lines of the settings of a section. -/
def settingLines (settings : List (String × List Char)) : List Char :=
  settings.flatMap fun setting => setting.1.toList ++ [' ', '=', ' '] ++ setting.2 ++ ['\n']

/-- The statements of a section. -/
def Content.statements (content : Content) : List Statement :=
  .header [content.1] :: content.2.map fun entry => .assignment [entry.1] entry.2

/-- The settings of a section are read one by one. -/
theorem ReadsAs.settings (h : ReadsAs (width + 1) rest others)
    {settings : List (String × List Char)} {entries : Entries}
    (hsettings : List.Forall₂ ShowsEntry settings entries) :
    ReadsAs (width + 1) (settingLines settings ++ rest)
      ((entries.map fun entry => .assignment [entry.1] entry.2) ++ others) := by
  induction hsettings with
  | nil => exact h
  | @cons setting entry settings entries hsetting _ ih =>
    obtain ⟨c, more, hname⟩ := List.exists_cons_of_ne_nil hsetting.key_bare.ne_nil
    have hc := beginsStatement_of_isBare
      (hsetting.key_bare.bare c (hname ▸ List.mem_cons_self ..))
    have hread := statement?_setting hsetting.key_bare hsetting.value width
      (settingLines settings ++ rest)
    rw [hname] at hread
    have hline := ih.line hc (more ++ [' ', '=', ' '] ++ setting.2 ++ ['\n'])
      (by simpa using hread)
    have hlines : settingLines (setting :: settings) =
        setting.1.toList ++ [' ', '=', ' '] ++ setting.2 ++ ['\n'] ++ settingLines settings := rfl
    rw [hlines, hsetting.key_eq, hname]
    simpa using hline

/-- **A section is read as what it was written from.** -/
theorem ReadsAs.section (h : ReadsAs (width + 1) rest others) {part : Section} {content : Content}
    (hshows : part.Shows content) :
    ReadsAs (width + 1) (part.text ++ rest) (content.statements ++ others) := by
  have hsettings := h.settings hshows.settings
  have hread := statement?_header hshows.name_bare (width + 1)
    (settingLines part.settings ++ rest)
  have hbracket : BeginsStatement '[' := by
    unfold BeginsStatement
    decide
  have hline := hsettings.line hbracket (content.1.toList ++ [']', '\n']) (by simpa using hread)
  have htext : part.text =
      ['['] ++ content.1.toList ++ [']', '\n'] ++ settingLines part.settings := by
    rw [← hshows.name_eq]
    rfl
  rw [htext]
  simpa [Content.statements] using hline

/-- The lines of a document are read section by section, whatever empty lines stand between. -/
theorem ReadsAs.document (h : ReadsAs (width + 1) rest []) {parts : List Section}
    {contents : List Content} (hshows : List.Forall₂ Section.Shows parts contents) :
    ReadsAs (width + 1) (joinWith ['\n'] (parts.map (·.text)) ++ rest)
      (contents.flatMap Content.statements) := by
  induction hshows with
  | nil => exact h
  | @cons part content parts contents hpart hparts ih =>
    cases hparts with
    | nil =>
      have hsection := h.section hpart
      rw [List.append_nil] at hsection
      simpa [joinWith] using hsection
    | cons hnext hmore =>
      have hsection := ih.emptyLine.section hpart
      rw [List.flatMap_cons]
      simpa [joinWith] using hsection

/-! ## Carrying out -/

/-- The names that entries are found under. -/
def Entries.names (entries : Entries) : List String := entries.map (·.1)

theorem lookup_eq_none {entries : Entries} {name : String} (h : name ∉ entries.names) :
    entries.lookup name = none := by
  rw [List.lookup_eq_none_iff]
  intro entry hentry
  rw [bne_iff_ne]
  intro heq
  exact h (List.mem_map.mpr ⟨entry, hentry, heq.symm⟩)

theorem lookup_concat {entries : Entries} {name : String} (h : name ∉ entries.names)
    (value : Toml) : (entries ++ [(name, value)]).lookup name = some value := by
  rw [List.lookup_append, lookup_eq_none h, Option.none_or, List.lookup_cons_self]

theorem replace_concat {entries : Entries} {name : String} (h : name ∉ entries.names)
    (value other : Toml) :
    Entries.replace name value (entries ++ [(name, other)]) = entries ++ [(name, value)] := by
  induction entries with
  | nil => exact if_pos rfl
  | cons entry entries ih =>
    obtain ⟨key, old⟩ := entry
    have hkey : key ≠ name := fun heq => h (heq ▸ List.mem_cons_self ..)
    have hmore : name ∉ Entries.names entries := fun hmem => h (List.mem_cons_of_mem _ hmem)
    show (if key = name then _ else _) = _
    rw [if_neg hkey]
    exact congrArg ((key, old) :: ·) (ih hmore)

/-- Settings under a header go into its table, one behind the other. -/
theorem carryOut_settings {entries : Entries} {name : String} (hname : name ∉ entries.names)
    (after : List Statement) :
    ∀ {settings : Entries} (before : Entries), (Entries.names (before ++ settings)).Nodup →
      Entries.carryOut [name]
          ((settings.map fun entry => .assignment [entry.1] entry.2) ++ after)
          (entries ++ [(name, .table .header before)]) =
        Entries.carryOut [name] after
          (entries ++ [(name, .table .header (before ++ settings))]) := by
  intro settings
  induction settings with
  | nil => intro before _; rw [List.append_nil]; rfl
  | cons setting settings ih =>
    intro before hnodup
    obtain ⟨key, value⟩ := setting
    have hkey : key ∉ Entries.names before := by
      unfold Entries.names at hnodup ⊢
      rw [List.map_append, List.map_cons] at hnodup
      exact fun hmem => (List.nodup_append.mp hnodup).2.2 key hmem key (List.mem_cons_self ..) rfl
    have hassign : Entries.assign value [key] before = some (before ++ [(key, value)]) := by
      unfold Entries.assign
      rw [lookup_eq_none hkey]
      rfl
    have hwithin : Entries.within (·.assign value [key]) [name]
        (entries ++ [(name, .table .header before)]) =
          some (entries ++ [(name, .table .header (before ++ [(key, value)]))]) := by
      unfold Entries.within
      rw [lookup_concat hname]
      show ((Entries.assign value [key] before).map _) = _
      rw [hassign, Option.map_some, replace_concat hname]
    have hmore := ih (before ++ [(key, value)]) (by simpa using hnodup)
    rw [List.map_cons, List.cons_append]
    show (Entries.within (·.assign value [key]) [name] _).bind _ = _
    rw [hwithin]
    simpa using hmore

/-- The table of a section. -/
def Content.table (content : Content) : String × Toml := (content.1, .table .header content.2)

/-- **Carrying out the statements of sections yields their tables**, if no name is taken twice. -/
theorem carryOut_sections :
    ∀ {contents : List Content} (entries : Entries) (current : List String),
      (entries.names ++ contents.map (·.1)).Nodup →
      (∀ content ∈ contents, (Entries.names content.2).Nodup) →
      Entries.carryOut current (contents.flatMap Content.statements) entries =
        some (entries ++ contents.map Content.table) := by
  intro contents
  induction contents with
  | nil => intro entries current _ _; rw [List.map_nil, List.append_nil]; rfl
  | cons content contents ih =>
    intro entries current hnames hsettings
    obtain ⟨name, settings⟩ := content
    have hname : name ∉ entries.names := by
      exact fun hmem => (List.nodup_append.mp hnames).2.2 name hmem name (List.mem_cons_self ..) rfl
    have hopen : Entries.openTable name entries =
        some (entries ++ [(name, .table .header [])]) := by
      unfold Entries.openTable
      rw [lookup_eq_none hname]
    have hmore := ih (entries ++ [(name, .table .header settings)]) [name]
      (by simpa [Entries.names] using hnames)
      fun other hother => hsettings other (List.mem_cons_of_mem _ hother)
    rw [List.flatMap_cons]
    show (Entries.openTable name entries).bind
      (Entries.carryOut [name] ((settings.map fun entry => .assignment [entry.1] entry.2) ++
        contents.flatMap Content.statements)) = _
    rw [hopen]
    show Entries.carryOut [name] _ (entries ++ [(name, .table .header [])]) = _
    have hcarry := carryOut_settings hname (contents.flatMap Content.statements) []
      (hsettings (name, settings) (List.mem_cons_self ..))
    rw [hcarry, List.nil_append, hmore]
    simp [Content.table]

/-! ## Documents -/

theorem dropMark_of_head {text : List Char} (h : text.head? ≠ some '\ufeff') :
    dropMark text = text := by
  unfold dropMark
  split
  · exact absurd rfl h
  · rfl

/-- A document begins with a header, if it has any section. -/
theorem head?_document (parts : List Section) {rest : List Char}
    (hrest : rest = [] ∨ rest = ['\n']) :
    (joinWith ['\n'] (parts.map (·.text)) ++ rest).head? ≠ some '\ufeff' := by
  cases parts with
  | nil => rcases hrest with rfl | rfl <;> decide
  | cons part parts =>
    have hhead : (joinWith ['\n'] ((part :: parts).map (·.text)) ++ rest).head? = some '[' := by
      cases parts with
      | nil => rfl
      | cons next more => rfl
    rw [hhead]
    decide

/-- **A document of sections is read as what it was written from**, with an empty line at its end or
without. -/
theorem ofText?_documentText {parts : List Section} {contents : List Content}
    (hshows : List.Forall₂ Section.Shows parts contents) (hnames : (contents.map (·.1)).Nodup)
    (hsettings : ∀ content ∈ contents, (Entries.names content.2).Nodup) {rest : String}
    (hrest : rest.toList = [] ∨ rest.toList = ['\n']) :
    ofText? (documentText parts ++ rest) = some (contents.map Content.table) := by
  have hreads (width : Nat) : ReadsAs width rest.toList [] := by
    rcases hrest with heq | heq
    · rw [heq]
      exact readsAs_nil width
    · rw [heq]
      exact (readsAs_nil width).emptyLine
  have htext : (documentText parts ++ rest).toList =
      joinWith ['\n'] (parts.map (·.text)) ++ rest.toList := by
    unfold documentText
    rw [String.toList_append, String.toList_ofList]
  unfold ofText?
  rw [htext, dropMark_of_head (head?_document parts hrest)]
  dsimp only
  have hstatements (width : Nat) := (hreads (width + 1)).document hshows _ (Nat.lt_succ_self _)
  rw [hstatements]
  exact carryOut_sections [] [] hnames hsettings

end FileLore.Toml
