import FileLore.Proofs.Path.Extension
import FileLore.Proofs.Source.Reading

/-!
# What the path tells of a file

A record has its name, its role and its language from the path alone. The name is
what follows the last slash, and the role goes by that name. The language goes by
the last name on the path, and what leads nowhere behind it is no part of the path:
a path that ends in a slash or in a name `.` has the language of the path before
that, while nothing or a dot follows its last slash. So files with the same name
have the same role, and they have the same language where that name names
something (`recordFile_sameBaseName`).
-/

namespace FileLore

open FileLore.Path

variable {path other : String}

namespace Path

/-- There is no slash in what follows the last one. -/
theorem slash_notMem_baseName (path : String) : '/' ∉ (baseName path).toList := by
  obtain ⟨dir, name, hpath, hdir, hname⟩ := exists_directory path.toList
  rwa [← (baseName_eq_iff hpath hdir hname).mp rfl]

theorem baseName_baseName (path : String) : baseName (baseName path) = baseName path :=
  (baseName_eq_iff (List.nil_append _).symm (.inl rfl) (slash_notMem_baseName path)).mpr rfl

/-- A path has the names on the way to its last slash and then that behind it. -/
theorem exists_names (path : String) :
    ∃ dir, names path = namesIn dir ++ names (baseName path) := by
  obtain ⟨dir, name, hpath, hdir, hname⟩ := exists_directory path.toList
  refine ⟨dir, ?_⟩
  rw [names_toList, names_toList, ← (baseName_eq_iff hpath hdir hname).mp rfl, hpath,
    hdir.namesIn_append]

/-- What follows the last slash is the last name, unless it is nothing or a dot. -/
theorem names_baseName (path : String) :
    names (baseName path) =
      if baseName path = "" ∨ baseName path = "." then [] else [(baseName path).toList] := by
  rw [names_toList, namesIn_of_notMem (slash_notMem_baseName path)]
  exact if_congr (or_congr String.toList_eq_nil_iff (@String.toList_inj _ ".")) rfl rfl

end Path

namespace Role

/-- The role goes by what follows the last slash. -/
theorem ofPath_baseName (path : String) : ofPath (baseName path) = ofPath path := by
  rw [ofPath, ofPath, baseName_baseName]

end Role

namespace Language

/-- Paths with the same last name have the same language. -/
theorem ofPath_congr (h : (names path).getLast? = (names other).getLast?) :
    ofPath path = ofPath other := by
  rw [ofPath, ofPath, extension?, extension?, fileName?, fileName?, h]

theorem ofPath_of_names (h : names path = []) : ofPath path = unknown := by
  rw [ofPath, extension?, fileName?, h]
  rfl

/-- What leads nowhere behind a path changes nothing about its language. -/
theorem ofPath_append (path : String) {tail : String} (h : StaysHere tail.toList) :
    ofPath (path ++ tail) = ofPath path := by
  apply ofPath_congr
  rw [names_toList, names_toList, String.toList_append, h.namesIn_append]

theorem ofPath_baseName (h : baseName path ≠ "") (hdot : baseName path ≠ ".") :
    ofPath (baseName path) = ofPath path := by
  obtain ⟨dir, hnames⟩ := exists_names path
  rw [names_baseName, if_neg (not_or.mpr ⟨h, hdot⟩)] at hnames
  apply ofPath_congr
  rw [names_baseName, if_neg (not_or.mpr ⟨h, hdot⟩), hnames, List.getLast?_concat]
  rfl

/-- **The language goes by what follows the last slash** where that names something, and otherwise
just if the path shows no language at all. -/
theorem ofPath_baseName_iff (path : String) : ofPath (baseName path) = ofPath path ↔
    baseName path ≠ "" ∧ baseName path ≠ "." ∨ ofPath path = unknown := by
  by_cases hbase : baseName path = "" ∨ baseName path = "."
  · have hunknown : ofPath (baseName path) = unknown :=
      ofPath_of_names ((names_baseName path).trans (if_pos hbase))
    rw [hunknown, ← not_or, eq_comm]
    exact ⟨.inr, fun h => h.resolve_left (not_not_intro hbase)⟩
  · obtain ⟨hempty, hdot⟩ := not_or.mp hbase
    exact ⟨fun _ => .inl ⟨hempty, hdot⟩, fun _ => ofPath_baseName hempty hdot⟩

end Language

/-- The fields of a record that its path decides. -/
theorem FileRecord.of_path (path : String) (source? : Option String) :
    (of path source?).name = baseName path ∧ (of path source?).role = Role.ofPath path ∧
      (of path source?).language = Language.ofPath path := by
  simp only [of, and_self]

/-- **What the path tells of a file.** Files with the same last part of the path have records with
the same name and the same role, whatever their directories and contents, and with the same
language if that part is neither empty nor a dot. Role and language are those of the last part
alone, but for the language of a path that goes on with a slash or a dot behind the file: it is
that of the path before these, and so it differs just if that path shows a language. -/
theorem recordFile_sameBaseName (path other : String) (given given' : Option String)
    (disk disk' : Disk) (h : baseName path = baseName other) :
    let record := ((recordFile path given).run disk).1
    let record' := ((recordFile other given').run disk').1
    (record.name = record'.name ∧ record.role = record'.role ∧
      (baseName path ≠ "" ∧ baseName path ≠ "." → record.language = record'.language)) ∧
    Role.ofPath path = Role.ofPath (baseName path) ∧
    (Language.ofPath path = Language.ofPath (baseName path) ↔
      baseName path ≠ "" ∧ baseName path ≠ "." ∨ Language.ofPath path = .unknown) ∧
    Language.ofPath (path ++ "/") = Language.ofPath path ∧
    Language.ofPath (path ++ "/.") = Language.ofPath path := by
  intro record record'
  have hrecord : record = FileRecord.of path (given <|> sourceOn? disk path) :=
    congrArg Prod.fst (recordFile_run path given disk)
  have hrecord' : record' = FileRecord.of other (given' <|> sourceOn? disk' other) :=
    congrArg Prod.fst (recordFile_run other given' disk')
  obtain ⟨hname, hrole, hlanguage⟩ := FileRecord.of_path path (given <|> sourceOn? disk path)
  obtain ⟨hname', hrole', hlanguage'⟩ :=
    FileRecord.of_path other (given' <|> sourceOn? disk' other)
  rw [hrecord, hrecord', hname, hname', hrole, hrole', hlanguage, hlanguage']
  have hslash : StaysHere "/".toList := .slash .nil
  have hhere : StaysHere "/.".toList := .here .nil
  refine ⟨⟨h, ?_, fun hnamed => ?_⟩, (Role.ofPath_baseName path).symm,
    eq_comm.trans (Language.ofPath_baseName_iff path), Language.ofPath_append path hslash,
    Language.ofPath_append path hhere⟩
  · rw [← Role.ofPath_baseName path, h, Role.ofPath_baseName other]
  · calc Language.ofPath path
        = Language.ofPath (baseName path) :=
          (Language.ofPath_baseName hnamed.1 hnamed.2).symm
      _ = Language.ofPath (baseName other) := congrArg Language.ofPath h
      _ = Language.ofPath other := Language.ofPath_baseName (h ▸ hnamed.1) (h ▸ hnamed.2)

/-- The records of two files of one name, the one given and the other missing. -/
theorem recordFile_sameBaseName_routes :
    baseName "./src//api/Routes.PY" = baseName "Routes.PY" ∧
    let record := ((recordFile "./src//api/Routes.PY" (some "x = 1\n")).run ⟨[], []⟩).1
    let record' := ((recordFile "Routes.PY" none).run ⟨[], []⟩).1
    record.name = record'.name ∧ record.role = record'.role ∧
      record.language = record'.language := by
  have hbase : baseName "./src//api/Routes.PY" = baseName "Routes.PY" := by decide +kernel
  have hnamed : baseName "./src//api/Routes.PY" ≠ "" ∧ baseName "./src//api/Routes.PY" ≠ "." := by
    decide +kernel
  obtain ⟨⟨hname, hrole, hlanguage⟩, -⟩ := recordFile_sameBaseName "./src//api/Routes.PY"
    "Routes.PY" (some "x = 1\n") none ⟨[], []⟩ ⟨[], []⟩ hbase
  exact ⟨hbase, hname, hrole, hlanguage hnamed⟩

/-- Two paths that end in a slash have the same last part, nothing, and yet different languages,
one of them not that of its last part: a slash at the end counts for the name and not for the
language. -/
theorem not_sameLanguage_of_trailingSlash :
    baseName "main.py/" = baseName "main.go/" ∧
    ((recordFile "main.py/" none).run ⟨[], []⟩).1.language ≠
      ((recordFile "main.go/" none).run ⟨[], []⟩).1.language ∧
    Language.ofPath "main.py/" ≠ Language.ofPath (baseName "main.py/") := by
  decide +kernel

end FileLore
