import FileLore.Proofs.CommandLine.Configuration

/-!
# The settings that are shown can be read back

The program shows the settings of a run as the text of a configuration file. Such a
text can be made of every configuration that was loaded, with any texts in place of
its own, and gives that configuration back when it is read, with the line break that
is printed after it or without (`shownConfig_readsBack`). So what is printed, kept as
a configuration file, leads to the same settings.
-/

namespace FileLore

namespace Settings

variable {surroundings : Surroundings} {filter : Log.Filter}

/-- Showing the settings prints their text. -/
theorem performLogged_configShow (settings : Settings)
    (h : settings.config.probeTimeout ≤ Toml.greatestInteger) :
    (settings.performLogged surroundings filter .configShow).Yields fun outcome =>
      outcome.exitCode = 0 ∧ outcome.output = settings.config.text ++ "\n" := by
  have hanswer : (settings.perform surroundings .configShow).Yields
      (· = ⟨some settings.config.text, []⟩) := by
    rw [perform, Config.text?_eq h]
    rfl
  refine .of_bind fun _ => hanswer.bind ?_
  rintro _ rfl
  exact .of_bind fun _ => ⟨rfl, rfl⟩

end Settings

namespace Config

/-- A configuration that can be written gives itself back, also from a line that is printed. -/
theorem readsBack {config : Config} (h : config.probeTimeout ≤ Toml.greatestInteger) :
    ∃ text, config.text? = some text ∧ ofText? text = some config ∧
      ofText? (text ++ "\n") = some config := by
  refine ⟨config.text, text?_eq h, ?_, ofText?_text h (Or.inr rfl)⟩
  have hread : ofText? (config.text ++ "") = some config := ofText?_text h (Or.inl rfl)
  rwa [String.append_empty] at hread

end Config

/-- **What is shown of a configuration gives it back.** A configuration that was loaded can be
written, with any texts for the settings of the command line and with the name of any directory for
a project without a name, and is read again as it was. A run that shows its settings succeeds and
prints a text that gives back the configuration of the run. -/
theorem shownConfig_readsBack :
    (∀ path disk log config last,
      (Config.load path).Ends disk log (.ok config) last →
      ∀ overrides directory,
      ∀ shown ∈ [Settings.applied overrides config,
        Settings.named directory (Settings.applied overrides config)],
      ∃ text, shown.text? = some text ∧ Config.ofText? text = some shown ∧
        Config.ofText? (text ++ "\n") = some shown) ∧
    ∀ surroundings arguments options disk log outcome last,
      Arguments.ofLine arguments = .ok (.configShow, options) →
      Log.Filter.ofSetting? (surroundings.valueOf? "RUST_LOG") ≠ none →
      (runProgram surroundings arguments).Ends disk log outcome last →
      outcome.exitCode = 0 ∧ ∃ settings before mid,
        (Settings.resolve surroundings options).Ends disk before settings mid ∧
        Config.ofText? outcome.output = some settings.config := by
  constructor
  · intro path disk log config last hends overrides directory shown hshown
    have hconfig := (Config.load_yields path).ends hends config rfl
    rcases List.mem_pair.mp hshown with rfl | rfl
    · exact Config.readsBack hconfig
    · exact Config.readsBack hconfig
  · intro surroundings arguments options disk log outcome last hline hfilter hends
    obtain ⟨filter, hfilter⟩ := Option.ne_none_iff_exists'.mp hfilter
    rw [runProgram, hline] at hends
    dsimp only at hends
    rw [hfilter] at hends
    obtain ⟨settings, mid, before, after, hresolved, hperformed, -⟩ := hends.of_bind
    have hsettings := (Settings.resolve_yields surroundings options).ends hresolved
    obtain ⟨hcode, houtput⟩ := (settings.performLogged_configShow hsettings).ends hperformed
    refine ⟨hcode, settings, before, mid, hresolved, ?_⟩
    rw [houtput]
    exact Config.ofText?_text hsettings (Or.inr rfl)

/-- A configuration whose texts need every way of writing, with the greatest time that there can
be. -/
def oddConfig : Config where
  cacheRoot := "C:\\cache"
  logsDirectory := ""
  projectName := none
  probeAddress := "\u0000\u007f\r\né😀"
  probeTimeout := 9223372036854775807
  tokenVariable := "'''\n\"\"\""
  owner := some "\""
  repository := none

/-- A home with a file for that configuration and an empty working directory. -/
def oddHome : Disk :=
  ⟨[(["w"], .directory), (["h"], .directory), (["h", ".codecache"], .directory),
    (["h", ".codecache", "codecache.toml"], .file (Text.joined "\n"
      ["[cache]", "root = 'C:\\cache'", "[logging]", "logs_dir = ''", "[graph]",
        "probe_timeout_ms = 9_223_372_036_854_775_807",
        "probe_addr = \"\\u0000\\u007F\\r\\né\\U0001F600\"", "[github]",
        "token_env = \"'''\\n\\\"\\\"\\\"\"", "owner = '\"'"]).toUTF8)], ["w"]⟩

theorem load_oddHome_ends :
    ∃ log, (Config.load (Config.fileIn "/h")).Ends oddHome log (.ok oddConfig) oddHome := by
  obtain ⟨log, hends⟩ := FileTask.ends_run (Config.load (Config.fileIn "/h")) oddHome
  have hvalue : ((Config.load (Config.fileIn "/h")).run oddHome).1.toOption = some oddConfig := by
    decide +kernel
  have hdisk : ((Config.load (Config.fileIn "/h")).run oddHome).2 = oddHome := by
    rw [Config.load_run]
  refine ⟨log, ?_⟩
  cases hresult : ((Config.load (Config.fileIn "/h")).run oddHome).1 with
  | error cause =>
    rw [hresult] at hvalue
    cases hvalue
  | ok config =>
    rw [hresult] at hvalue
    cases hvalue
    rwa [hdisk, hresult] at hends

/-- The settings of that home come back with others in the places of some of them. -/
theorem shownConfig_readsBack_oddHome :
    let overrides : Overrides := ⟨some "'\t'", some "", none⟩
    let shown := Settings.applied overrides oddConfig
    let arguments := ["config", "show"]
    let program := runProgram (homeSurroundings []) arguments
    (∃ log, (Config.load (Config.fileIn "/h")).Ends oddHome log (.ok oddConfig) oddHome) ∧
      (∃ text, shown.text? = some text ∧ Config.ofText? text = some shown ∧
        Config.ofText? (text ++ "\n") = some shown) ∧
      ∃ log outcome last, program.Ends oddHome log outcome last ∧ outcome.exitCode = 0 ∧
        ∃ settings before mid,
          (Settings.resolve (homeSurroundings []) Overrides.none).Ends oddHome before settings mid ∧
          Config.ofText? outcome.output = some settings.config := by
  intro overrides shown arguments program
  obtain ⟨hloads, hruns⟩ := shownConfig_readsBack
  obtain ⟨log, hload⟩ := load_oddHome_ends
  obtain ⟨log', hends⟩ := FileTask.ends_run program oddHome
  exact ⟨⟨log, hload⟩,
    hloads _ _ _ _ _ hload overrides "/w" shown List.mem_cons_self,
    log', _, _, hends,
    hruns _ arguments Overrides.none _ _ _ _ (by decide +kernel) (by decide +kernel) hends⟩

end FileLore
