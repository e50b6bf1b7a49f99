import FileLore.Graph.Entity
import FileLore.Proofs.Path.Extension
import FileLore.Proofs.Text.LetterCase
import Mathlib.Data.List.Infix

/-!
# Which files have imports

Two tests say that a file is a Python file. Its language is Python if it has the
extension in any case, whatever leads nowhere behind its name
(`ofPath_eq_python_iff`). It may have imports if its path ends in `.py` as it
stands. The two differ on the paths that spell the extension in capitals or go on
behind the name, and on files with the name `.py`, which have no extension
(`not_ofImports_iff_python`); on all others they agree (`ofImports_python`).
-/

namespace FileLore

open Text FileLore.Path

/-! ## The language -/

/-- The spellings of the extension of Python files. -/
def pythonSpellings : List (List Char) :=
  [['p', 'y'], ['p', 'Y'], ['P', 'y'], ['P', 'Y']]

theorem lowerText_eq_py_iff {extension : List Char} :
    lowerText extension = ['p', 'y'] ↔ extension ∈ pythonSpellings := by
  have hp {c : Char} : lower c = ['p'] ↔ c = 'P' ∨ c = 'p' :=
    @lower_eq_iff 'P' c (by decide) (by decide) (by decide)
  have hy {c : Char} : lower c = ['y'] ↔ c = 'Y' ∨ c = 'y' :=
    @lower_eq_iff 'Y' c (by decide) (by decide) (by decide)
  constructor
  · intro h
    obtain ⟨c, rest, rfl, hc, hrest⟩ := (lowerText_eq_cons_iff (by decide)).mp h
    obtain ⟨d, rest, rfl, hd, hrest⟩ := (lowerText_eq_cons_iff (by decide)).mp hrest
    obtain rfl : rest = [] := by
      cases rest with
      | nil => rfl
      | cons e more => exact absurd hrest (lowerText_ne_nil e more)
    rcases hp.mp hc with rfl | rfl <;> rcases hy.mp hd with rfl | rfl <;> decide
  · intro h
    have hall : ∀ spelling ∈ pythonSpellings, lowerText spelling = ['p', 'y'] := by decide
    exact hall extension h

theorem ofExtension_eq_python_iff {extension : String} :
    Language.ofExtension extension = .python ↔ extension = "py" := by
  constructor
  · intro h
    unfold Language.ofExtension at h
    split at h
    · rfl
    all_goals cases h
  · rintro rfl
    rfl

/-- **The Python files** are those with the extension in one of its spellings. -/
theorem ofPath_eq_python_iff {path : String} :
    Language.ofPath path = .python ↔ ∃ dir stem extension tail,
      Spells path.toList dir stem extension tail ∧ extension ∈ pythonSpellings := by
  have hext (extension : List Char) :
      Language.ofExtension (String.ofList (lowerText extension)) = .python ↔
        extension ∈ pythonSpellings := by
    rw [ofExtension_eq_python_iff, ← lowerText_eq_py_iff]
    exact String.ofList_inj
  rw [Language.ofPath]
  cases hpath : extension? path with
  | none =>
    refine ⟨nofun, ?_⟩
    rintro ⟨dir, stem, extension, tail, hspells, -⟩
    rw [extension?_eq_some_iff.mpr ⟨dir, stem, tail, hspells⟩] at hpath
    cases hpath
  | some extension =>
    dsimp only
    rw [hext]
    constructor
    · intro h
      obtain ⟨dir, stem, tail, hspells⟩ := extension?_eq_some_iff.mp hpath
      exact ⟨dir, stem, extension, tail, hspells, h⟩
    · rintro ⟨dir, stem, other, tail, hspells, h⟩
      rw [extension?_eq_some_iff.mpr ⟨dir, stem, tail, hspells⟩] at hpath
      rwa [← Option.some.inj hpath]

/-! ## Imports -/

theorem ofImports_ne_nil_iff {path source : String} :
    Relation.ofImports path source ≠ [] ↔
      ".py".toList <:+ path.toList ∧ importedModules source ≠ [] := by
  rw [Relation.ofImports]
  by_cases hpath : ".py".toList <:+ path.toList
  · rw [if_pos (List.isSuffixOf_iff_suffix.mpr hpath), Ne, List.map_eq_nil_iff]
    exact (and_iff_right hpath).symm
  · rw [if_neg (mt List.isSuffixOf_iff_suffix.mp hpath)]
    exact ⟨fun h => absurd rfl h, fun h => absurd h.1 hpath⟩

/-- A path with an extension that ends in `.py` has that extension and nothing behind its name. -/
theorem eq_of_endsInPy {path dir stem extension tail : List Char}
    (h : Spells path dir stem extension tail) (hpath : ".py".toList <:+ path) :
    extension = ['p', 'y'] ∧ tail = [] := by
  obtain ⟨before, hbefore⟩ := hpath
  have hsplit : before ++ '.' :: ['p', 'y'] = dir ++ (stem ++ '.' :: extension ++ tail) :=
    hbefore.trans h.path_eq
  have hlast := congrArg List.getLast? hsplit
  rw [List.getLast?_append, List.getLast?_append, List.getLast?_append] at hlast
  rcases h.leadsNowhere.getLast? with rfl | htail | htail
  · rw [List.append_nil, ← List.append_assoc] at hsplit
    exact ⟨(cut_last_unique hsplit (by decide) h.noDot).2.symm, rfl⟩
  · rw [htail] at hlast
    cases hlast
  · rw [htail] at hlast
    cases hlast

/-- A path ends in `.py` if its name is `.py`, or has a stem before that. -/
theorem endsInPy_iff {path : String} : ".py".toList <:+ path.toList ↔
    baseName path = ".py" ∨ ∃ dir stem, Spells path.toList dir stem ['p', 'y'] [] := by
  constructor
  · rintro ⟨before, hbefore⟩
    obtain ⟨dir, stem, rfl, hdir, hstem⟩ := exists_directory before
    have hpath : path.toList = dir ++ (stem ++ ".py".toList) := by
      rw [← hbefore, List.append_assoc]
    by_cases hempty : stem = []
    · subst hempty
      exact .inl ((baseName_eq_iff hpath hdir (by decide)).mpr rfl)
    · refine .inr ⟨dir, stem, ?_, hdir, hstem, hempty, by decide, by decide, by simp, .nil⟩
      rw [List.append_nil]
      exact hpath
  · rintro (hbase | ⟨dir, stem, h⟩)
    · obtain ⟨dir, name, hpath, hdir, hname⟩ := exists_directory path.toList
      rw [hpath, (baseName_eq_iff hpath hdir hname).mp hbase]
      exact List.suffix_append dir _
    · rw [h.path_eq, List.append_nil, ← List.append_assoc]
      exact List.suffix_append _ _

/-- A file with the name `.py` has no extension. -/
theorem baseName_ne_of_spells {path : String} {dir stem extension tail : List Char}
    (h : Spells path.toList dir stem extension tail) : baseName path ≠ ".py" := by
  intro hbase
  obtain ⟨rfl, rfl⟩ := eq_of_endsInPy h (endsInPy_iff.mpr (.inl hbase))
  have hpath := h.path_eq
  rw [List.append_nil] at hpath
  have hslash : '/' ∉ stem ++ '.' :: ['p', 'y'] := by
    simp [h.stem_noSlash]
  have hname : stem ++ '.' :: ['p', 'y'] = [] ++ '.' :: ['p', 'y'] :=
    (baseName_eq_iff hpath h.directory hslash).mp hbase
  exact h.stem_nonempty (cut_last_unique hname (by decide) (by decide)).1

/-- **Where the files with imports are the Python files.** A file has imports if its path ends in
`.py` as it stands and its source imports from some module. Among the files with such a source,
this is the test of the language but for the files with the name `.py` and for the paths that spell
the extension in capitals or lead nowhere behind the name. -/
theorem ofImports_python (path source : String) :
    (Relation.ofImports path source ≠ [] ↔
      ".py".toList <:+ path.toList ∧ importedModules source ≠ []) ∧
    (Language.ofPath path = .python ↔ ∃ dir stem extension tail,
      Spells path.toList dir stem extension tail ∧ extension ∈ pythonSpellings) ∧
    ((Relation.ofImports path source ≠ [] ↔
        Language.ofPath path = .python ∧ importedModules source ≠ []) ↔
      importedModules source = [] ∨ baseName path ≠ ".py" ∧ ∀ dir stem extension tail,
        Spells path.toList dir stem extension tail → extension ∈ pythonSpellings →
          extension = ['p', 'y'] ∧ tail = []) := by
  refine ⟨ofImports_ne_nil_iff, ofPath_eq_python_iff, ?_⟩
  rw [ofImports_ne_nil_iff, ofPath_eq_python_iff]
  by_cases hmodules : importedModules source = []
  · simp [hmodules]
  -- With such a source the two tests of the path are left to compare.
  simp only [ne_eq, hmodules, not_false_eq_true, and_true, false_or]
  constructor
  · intro h
    refine ⟨fun hbase => ?_, fun dir stem extension tail hspells hpython => ?_⟩
    · -- The name `.py` would have to have an extension.
      obtain ⟨dir, stem, extension, tail, hspells, -⟩ := h.mp (endsInPy_iff.mpr (.inl hbase))
      exact baseName_ne_of_spells hspells hbase
    · exact eq_of_endsInPy hspells (h.mpr ⟨dir, stem, extension, tail, hspells, hpython⟩)
  · rintro ⟨hbase, hplain⟩
    constructor
    · intro hpath
      obtain ⟨dir, stem, hspells⟩ := (endsInPy_iff.mp hpath).resolve_left hbase
      exact ⟨dir, stem, _, _, hspells, by decide⟩
    · rintro ⟨dir, stem, extension, tail, hspells, hpython⟩
      obtain ⟨rfl, rfl⟩ := hplain dir stem extension tail hspells hpython
      exact endsInPy_iff.mpr (.inr ⟨dir, stem, hspells⟩)

/-- **The files with imports are not all the Python files.** The language goes by the extension in
either case, whatever leads nowhere behind it; the imports go by the end of the path. -/
theorem not_ofImports_iff_python :
    let source := "from os import path\n"
    ¬(Relation.ofImports "MAIN.PY" source ≠ [] ↔
        Language.ofPath "MAIN.PY" = .python ∧ importedModules source ≠ []) ∧
      ¬(Relation.ofImports "main.py/" source ≠ [] ↔
        Language.ofPath "main.py/" = .python ∧ importedModules source ≠ []) ∧
      ¬(Relation.ofImports ".py" source ≠ [] ↔
        Language.ofPath ".py" = .python ∧ importedModules source ≠ []) := by
  decide +kernel

end FileLore
