import FileLore.Config.File
import FileLore.Proofs.Disk.Failure
import FileLore.Proofs.Toml.Documents
import FileLore.Proofs.Toml.Range

/-!
# Settings are read as they were written

Settings that can be written give themselves back when their text is read
(`ofText?_text`): whatever characters their texts hold, and whether or not the
settings that need not be there are there. What cannot be written is a time that is
too large for a whole number, and such a time is not read either
(`probeTimeout_le_of_ofText?`), so everything that was read can be written.
-/

namespace FileLore.Config

open Toml (Content Entries IsBareName Section ShowsEntry isWritten_stringText
  isWritten_natText)

variable {config : Config}

/-! ## Writing -/

/-- A setting that need not be there, with its value. -/
def entryIfAny (key : String) (value : Option String) : Entries :=
  (value.map fun text => (key, Toml.string text)).toList

/-- What the sections of a configuration file hold. -/
def contents (config : Config) : List Content :=
  [("cache", [("root", .string config.cacheRoot)]),
    ("logging", [("logs_dir", .string config.logsDirectory)]),
    ("project", entryIfAny "name" config.projectName),
    ("graph",
      [("probe_addr", .string config.probeAddress),
        ("probe_timeout_ms", .integer (.ofNat config.probeTimeout))]),
    ("github",
      ("token_env", .string config.tokenVariable) ::
        (entryIfAny "owner" config.owner ++ entryIfAny "repo" config.repository))]

theorem showsEntry_string {key : String} (h : IsBareName key) (text : String) :
    ShowsEntry (key, Toml.stringText text) (key, .string text) :=
  ⟨rfl, h, isWritten_stringText text⟩

theorem settingIfAny_shows {key : String} (h : IsBareName key) (value : Option String) :
    List.Forall₂ ShowsEntry (settingIfAny key value) (entryIfAny key value) := by
  cases value with
  | none => exact .nil
  | some text => exact .cons (showsEntry_string h text) .nil

/-- The sections show what they hold, if the time is not too large. -/
theorem sections_shows (h : config.probeTimeout ≤ Toml.greatestInteger) :
    List.Forall₂ Section.Shows config.sections config.contents := by
  refine .cons ⟨rfl, (by decide : IsBareName "cache"), ?_⟩ <|
    .cons ⟨rfl, (by decide : IsBareName "logging"), ?_⟩ <|
    .cons ⟨rfl, (by decide : IsBareName "project"), ?_⟩ <|
    .cons ⟨rfl, (by decide : IsBareName "graph"), ?_⟩ <|
    .cons ⟨rfl, (by decide : IsBareName "github"), ?_⟩ .nil
  · exact .cons (showsEntry_string (by decide) _) .nil
  · exact .cons (showsEntry_string (by decide) _) .nil
  · exact settingIfAny_shows (by decide) _
  · exact .cons (showsEntry_string (by decide) _) <|
      .cons ⟨rfl, (by decide : IsBareName "probe_timeout_ms"), isWritten_natText h⟩ .nil
  · refine .cons (showsEntry_string (by decide) _) ?_
    exact List.rel_append (settingIfAny_shows (by decide) _) (settingIfAny_shows (by decide) _)

/-- No name is taken twice, neither that of a section nor within a section. -/
theorem names_nodup (config : Config) :
    (config.contents.map (·.1)).Nodup ∧
      ∀ content ∈ config.contents, (Entries.names content.2).Nodup := by
  obtain ⟨root, logs, name, address, timeout, token, owner, repository⟩ := config
  refine ⟨by simp [contents], ?_⟩
  cases name <;> cases owner <;> cases repository <;>
    simp [contents, entryIfAny, Entries.names]

theorem ofEntries?_contents (config : Config) :
    ofEntries? (config.contents.map Content.table) = some config := by
  obtain ⟨root, logs, name, address, timeout, token, owner, repository⟩ := config
  cases name <;> cases owner <;> cases repository <;> rfl

/-- Settings are written if the time is not too large. -/
theorem text?_eq (h : config.probeTimeout ≤ Toml.greatestInteger) :
    config.text? = some config.text :=
  if_pos h

/-- **Settings that can be written give themselves back**, with an empty line at the end of their
text or without. -/
theorem ofText?_text (h : config.probeTimeout ≤ Toml.greatestInteger) {rest : String}
    (hrest : rest.toList = [] ∨ rest.toList = ['\n']) :
    ofText? (config.text ++ rest) = some config := by
  obtain ⟨hnames, hsettings⟩ := names_nodup config
  unfold ofText? text
  rw [Toml.ofText?_documentText (sections_shows h) hnames hsettings hrest]
  exact ofEntries?_contents config

/-! ## Reading -/

/-- A count that is read is no larger than a whole number can be. -/
theorem countOr_le {standard count : Nat} (hstandard : standard ≤ Toml.greatestInteger)
    {value : Option Toml} (hvalue : ∀ item ∈ value, Toml.IsBounded item)
    (h : countOr standard value = some count) : count ≤ Toml.greatestInteger := by
  unfold countOr at h
  split at h
  · cases h
    exact hstandard
  · next item =>
    cases h
    cases hvalue _ rfl with
    | integer hle => exact Int.ofNat_le.mp hle
  · cases h

/-- The values of a section are in range if the document is. -/
theorem isBounded_of_sectionValues? {name : String} {keys : List String} {entries : Entries}
    (hentries : entries.AreBounded) {values : List (Option Toml)}
    (h : sectionValues? name keys entries = some values) :
    ∀ value ∈ values, ∀ item ∈ value, Toml.IsBounded item := by
  unfold sectionValues? at h
  intro value hvalue item hitem
  split at h
  · cases h
    obtain ⟨_, -, rfl⟩ := List.mem_map.mp hvalue
    cases hitem
  · next hlookup =>
    cases h
    obtain ⟨key, -, rfl⟩ := List.mem_map.mp hvalue
    exact (hentries.table hlookup).lookup hitem
  · next hlookup =>
    cases h
    obtain ⟨⟨_, index⟩, -, rfl⟩ := List.mem_map.mp hvalue
    cases hentries.lookup hlookup with
    | array hitems => exact hitems item (List.mem_of_getElem? hitem)
  · cases h
    obtain ⟨_, -, rfl⟩ := List.mem_map.mp hvalue
    cases hitem
  · cases h

/-- **No time is read that is too large to be written.** -/
theorem probeTimeout_le_of_ofText? {document : String} (h : ofText? document = some config) :
    config.probeTimeout ≤ Toml.greatestInteger := by
  obtain ⟨entries, hdocument, h⟩ := Option.bind_eq_some_iff.mp h
  have hentries := Toml.areBounded_ofText? hdocument
  unfold ofEntries? at h
  simp only [Option.bind_eq_bind, Option.bind_eq_some_iff, Option.pure_def] at h
  obtain ⟨cache, -, logging, -, project, -, graph, hgraph, github, -, h⟩ := h
  have hvalues := isBounded_of_sectionValues? hentries hgraph
  split at h
  · next root logs name address timeout token owner repository =>
    have htimeout : ∀ item ∈ timeout, Toml.IsBounded item := hvalues timeout (by simp)
    simp only [Option.bind_eq_some_iff, Option.some.injEq] at h
    obtain ⟨_, -, _, -, _, -, _, -, count, hcount, _, -, _, -, _, -, rfl⟩ := h
    exact countOr_le (by decide) htimeout hcount
  · cases h

/-- What is loaded can be written. -/
theorem load_yields (path : String) :
    (load path).Yields fun result =>
      ∀ config, result = .ok config → config.probeTimeout ≤ Toml.greatestInteger := by
  unfold load
  refine .of_bind fun answer => ?_
  cases answer with
  | error cause => nofun
  | ok content =>
    dsimp only
    cases hcontent : ofText? content with
    | none => nofun
    | some config =>
      rintro _ ⟨⟩
      exact probeTimeout_le_of_ofText? hcontent

end FileLore.Config
