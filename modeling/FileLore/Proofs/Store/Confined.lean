import FileLore.Proofs.Store.Step

/-!
# Storing stays within the root

The paths that artifacts are stored for may be anything: absolute, empty, full of
names `..`. What storing works on is confined all the same (`store_confined`). The
paths of the artifact and of its temporary file are each the path of the root with
one plain name behind it (`IsChild`), because no slash of the stored path is left in
these names, and they are too long to be `.` or `..`. Wherever storing is
interrupted, and whatever fails, a place that has changed is a directory on the way
to the root that was missing, or one of these two files (`Touched`).
-/

namespace FileLore

namespace Path

open Disk (IsPlain pathNames pathNames_join)

/-- The components of a path are the names that are followed, without the names `.`. -/
theorem names_eq (path : String) :
    names path = ((pathNames path).map (·.toList)).filter (· != ['.']) := by
  have hlists : (pathNames path).map (·.toList) =
      (Text.splitAt '/' path.toList).filter (!·.isEmpty) := by
    simp [pathNames, Function.comp_def]
  rw [hlists, List.filter_filter, names]
  congr 1
  funext name
  exact Bool.and_comm ..

/-- A plain name that is joined to a path is the name of the file it leads to. -/
theorem fileName?_join {name : String} (h : IsPlain name) (base : String) :
    fileName? (join base name) = some name.toList := by
  have hhere : name.toList ≠ ['.'] := fun e => h.ne_here (String.toList_inj.mp e)
  have hup : name.toList ≠ ['.', '.'] := fun e => h.ne_up (String.toList_inj.mp e)
  rw [fileName?, names_eq, pathNames_join h, List.map_append, List.filter_append]
  simp [hhere, hup]

end Path

namespace Disk

variable {disk mid next : Disk} {home : Location} {base name : String} {names : List String}

/-- Whether a path is the one of a child of a directory: a single plain name stands behind the path
of the directory, and is followed from there. -/
structure IsChild (base path name : String) : Prop where
  plain : IsPlain name
  text : path = base ++ slashAfter base ++ name
  names : pathNames path = pathNames base ++ [name]
  start : ∀ disk : Disk, disk.startOf path = disk.startOf base

theorem isChild_join (h : IsPlain name) (base : String) :
    IsChild base (Path.join base name) name where
  plain := h
  text := h.join_eq base
  names := pathNames_join h base
  start := fun disk => startOf_join h disk base

/-- Whether all that has changed are files of certain names in a directory. -/
structure OnlyFiles (base : String) (names : List String) (disk next : Disk) : Prop where
  keeps : KeepsDirectories disk next
  changed : ∀ location, next.at? location ≠ disk.at? location →
    ∃ home, ∃ name ∈ names, next.follow base = .ok home ∧ location = home ++ [name] ∧
      disk.at? location ≠ some .directory ∧ next.at? location ≠ some .directory

namespace OnlyFiles

theorem refl (base : String) (names : List String) (disk : Disk) : OnlyFiles base names disk disk :=
  ⟨KeepsDirectories.refl disk, fun _ h => absurd rfl h⟩

theorem trans (h : OnlyFiles base names disk mid) (h' : OnlyFiles base names mid next) :
    OnlyFiles base names disk next := by
  refine ⟨h.keeps.trans h'.keeps, fun location hne => ?_⟩
  by_cases hlater : next.at? location = mid.at? location
  · -- Changed before, and left as it was then.
    rw [hlater] at hne ⊢
    obtain ⟨home, name, hmem, hf, hlocation, hbefore, hafter⟩ := h.changed location hne
    exact ⟨home, name, hmem, follow_mono h'.keeps hf, hlocation, hbefore, hafter⟩
  · obtain ⟨home, name, hmem, hf, hlocation, hbefore, hafter⟩ := h'.changed location hlater
    exact ⟨home, name, hmem, hf, hlocation, mt (h.keeps.directory location) hbefore, hafter⟩

/-- A change at the place of one file. -/
theorem of_place (hf : disk.follow base = .ok home) (hmem : name ∈ names)
    (hkeep : KeepsDirectories disk next) (hbefore : disk.at? (home ++ [name]) ≠ some .directory)
    (hafter : next.at? (home ++ [name]) ≠ some .directory)
    (hother : ∀ location, location ≠ home ++ [name] → next.at? location = disk.at? location) :
    OnlyFiles base names disk next := by
  refine ⟨hkeep, fun location hne => ?_⟩
  have hsame : location = home ++ [name] := by
    by_contra h
    exact hne (hother location h)
  subst hsame
  exact ⟨home, name, hmem, follow_mono hkeep hf, rfl, hbefore, hafter⟩

theorem put (hf : disk.follow base = .ok home) (hmem : name ∈ names)
    (hat : disk.at? (home ++ [name]) ≠ some .directory) (content : ByteArray) :
    OnlyFiles base names disk (disk.put (home ++ [name]) (.file content)) := by
  have hself := at?_put_self (ne_root_of_at?_ne hat) disk (.file content)
  refine of_place hf hmem (keepsDirectories_put hat _) hat ?_ fun _ h => at?_put_ne h disk _
  rw [hself]
  nofun

theorem erase (hf : disk.follow base = .ok home) (hmem : name ∈ names)
    (hat : disk.at? (home ++ [name]) ≠ some .directory) :
    OnlyFiles base names disk (disk.erase (home ++ [name])) := by
  have hself := at?_erase_self (ne_root_of_at?_ne hat) disk
  refine of_place hf hmem (keepsDirectories_erase hat) hat ?_ fun _ h => at?_erase_ne h disk
  rw [hself]
  nofun

end OnlyFiles

end Disk

namespace Cache

open Disk

variable {cache : Cache} {category : Namespace} {path payload : String} {disk next last : Disk}

/-- The two names in the root that storing works on. -/
def workNames (category : Namespace) (path : String) : List String :=
  [temporaryName category path, artifactName category path]

theorem temporaryName_mem (category : Namespace) (path : String) :
    temporaryName category path ∈ workNames category path :=
  List.mem_cons_self ..

theorem artifactName_mem (category : Namespace) (path : String) :
    artifactName category path ∈ workNames category path :=
  List.mem_cons_of_mem _ (List.mem_singleton_self _)

/-- Writing the temporary file changes no other. -/
theorem write_onlyFiles {part : ByteArray}
    (h : disk.changeFile (cache.temporaryPath category path) (fun _ => part) = .ok next) :
    OnlyFiles cache.root (workNames category path) disk next := by
  obtain ⟨-, home, old, hf, hat, rfl⟩ :=
    changeFile_join_ok (isPlain_temporaryName category path) h
  exact OnlyFiles.put hf (temporaryName_mem category path) hat part

theorem Littered.onlyFiles (h : cache.Littered category path disk next) :
    OnlyFiles cache.root (workNames category path) disk next := by
  rcases h with rfl | ⟨part, written, hwrite, hremove | rfl⟩
  · exact OnlyFiles.refl _ _ _
  · obtain ⟨home, content, hf, hat, rfl⟩ :=
      deleteFile_join_ok (isPlain_temporaryName category path) hremove
    refine (write_onlyFiles hwrite).trans ?_
    exact OnlyFiles.erase hf (temporaryName_mem category path) (by rw [hat]; nofun)
  · exact write_onlyFiles hwrite

theorem Replaced.onlyFiles (h : cache.Replaced category path payload disk next) :
    OnlyFiles cache.root (workNames category path) disk next := by
  obtain ⟨written, hwrite, hmove⟩ := h
  obtain ⟨-, -, home, content, hf, hat, hat', rfl⟩ := moveFile_join_ok
    (isPlain_temporaryName category path) (isPlain_artifactName category path) hmove
  have hfile : written.at? (home ++ [temporaryName category path]) ≠ some .directory := by
    rw [hat]
    nofun
  -- Moving takes the temporary file away and then puts the artifact in its place.
  have herase := OnlyFiles.erase hf (temporaryName_mem category path) hfile
  have hput := OnlyFiles.put (follow_mono herase.keeps hf) (artifactName_mem category path)
    (at?_erase_ne_directory (temporaryName_ne category category path path) hat') content
  exact (write_onlyFiles hwrite).trans (herase.trans hput)

/-- The places at which a disk may differ after something has been stored. -/
inductive Touched (cache : Cache) (category : Namespace) (path : String) (disk last : Disk) :
    Location → Prop where
  /-- A directory on the way to the root, where nothing stood. -/
  | directory {location : Location} {front : List String} (hfront : front <+: pathNames cache.root)
    (hreach : last.enterAll (last.startOf cache.root) front = .ok location)
    (hfree : disk.at? location = none) (hmade : last.at? location = some .directory) :
    Touched cache category path disk last location
  /-- The temporary file or the artifact, in the directory that the root leads to. -/
  | file {home : Location} {name : String}
    (hname : name = temporaryName category path ∨ name = artifactName category path)
    (hroot : last.follow cache.root = .ok home)
    (hbefore : disk.at? (home ++ [name]) ≠ some .directory)
    (hafter : last.at? (home ++ [name]) ≠ some .directory) :
    Touched cache category path disk last (home ++ [name])

/-- Wherever storing is interrupted, it has changed nothing but the directories on the way to the
root, the temporary file and the artifact. -/
theorem store_stops_touched {log : List Operation}
    (h : (cache.store category path payload).Stops disk log last) :
    KeepsDirectories disk last ∧ ∀ location, last.at? location ≠ disk.at? location →
      Touched cache category path disk last location := by
  obtain ⟨mid, hmade, hdone⟩ := store_stops h
  have hfiles : OnlyFiles cache.root (workNames category path) mid last := by
    rcases hdone with ⟨-, hreplaced⟩ | ⟨-, hlittered⟩
    · exact hreplaced.onlyFiles
    · exact hlittered.onlyFiles
  have hkeep := hmade.keepsDirectories
  refine ⟨hkeep.trans hfiles.keeps, fun location hne => ?_⟩
  -- A place that the two files do not account for has changed while the root was made.
  by_cases hlater : last.at? location = mid.at? location
  · rw [hlater] at hne
    obtain ⟨hfree, hdirectory, front, hfront, hreach⟩ := hmade.changed hne
    have hstart : last.startOf cache.root = mid.startOf cache.root := by
      simp only [startOf, hfiles.keeps.working]
    refine Touched.directory hfront ?_ hfree (hlater.trans hdirectory)
    rw [hstart]
    exact enterAll_mono hfiles.keeps hreach
  · obtain ⟨home, name, hmem, hroot, rfl, hbefore, hafter⟩ := hfiles.changed location hlater
    have hname : name = temporaryName category path ∨ name = artifactName category path := by
      simpa [workNames] using hmem
    exact Touched.file hname hroot (mt (hkeep.directory _) hbefore) hafter

/-- **Storing stays within the root**, whatever the path is that something is stored for. The
artifact and its temporary file are children of the root; the name of the temporary file is made of
the one of the artifact, but no artifact of any path has it. Wherever storing is interrupted, and so
also when it has succeeded or failed, the program works in the same directory, and what has changed
are missing directories on the way to the root, the temporary file and the artifact. -/
theorem store_confined (cache : Cache) (category : Namespace) (path payload : String) :
    IsChild cache.root (cache.artifactPath category path) (artifactName category path) ∧
    IsChild cache.root (cache.temporaryPath category path) (temporaryName category path) ∧
    (Path.fileName? (cache.artifactPath category path)).map
        (fun name => "." ++ String.ofList name ++ ".tmp") = some (temporaryName category path) ∧
    (∀ other another, cache.artifactPath other another ≠ cache.temporaryPath category path) ∧
    ∀ disk log last, (cache.store category path payload).Stops disk log last →
      last.workingDirectory = disk.workingDirectory ∧
        ∀ location, last.at? location ≠ disk.at? location →
          Touched cache category path disk last location := by
  have hplain := isPlain_artifactName category path
  refine ⟨isChild_join hplain cache.root,
    isChild_join (isPlain_temporaryName category path) cache.root, ?_,
    fun other another => temporaryPath_ne cache category other path another,
    fun disk log last h => ?_⟩
  · rw [artifactPath, Path.fileName?_join hplain, Option.map_some, String.ofList_toList,
      temporaryName]
  · obtain ⟨hkeep, htouched⟩ := store_stops_touched h
    exact ⟨hkeep.working, htouched⟩

/-- A path that climbs out of every directory has its artifact in the root like any other. -/
theorem store_confined_climbing :
    ∃ log last, ((Cache.mk "kb").store .context "../../etc/passwd" "x").Stops ⟨[], []⟩ log last ∧
      (last.at? ["kb", ".._.._etc_passwd_context.json"]).isSome ∧
      Touched ⟨"kb"⟩ .context "../../etc/passwd" ⟨[], []⟩ last
        ["kb", ".._.._etc_passwd_context.json"] := by
  let task := (Cache.mk "kb").store .context "../../etc/passwd" "x"
  obtain ⟨log, h⟩ := FileTask.ends_run task ⟨[], []⟩
  have hat : ((task.run ⟨[], []⟩).2.at? ["kb", ".._.._etc_passwd_context.json"]).isSome := by
    decide +kernel
  obtain ⟨-, -, -, -, hstops⟩ := store_confined ⟨"kb"⟩ .context "../../etc/passwd" "x"
  refine ⟨log, _, h.stops, hat, (hstops _ _ _ h.stops).2 _ fun hsame => ?_⟩
  rw [hsame] at hat
  cases hat

end Cache

end FileLore
