import Mathlib.Data.String.Basic
import FileLore.Proofs.Store.Concurrent

/-!
# Room for the temporary file

In a root that is there, with no directory in the way and nothing that fails, storing
succeeds just if a system takes the path of the temporary file, and what has been
stored is read. The temporary file stands beside the artifact, and its name is the one
of the artifact with five characters more. So it is not enough that the artifact has a
name and a path that a system takes: five more bytes have to fit into both of them
(`storeText_iff_room`). Where they do not, nothing is stored under any circumstances,
although there is nothing wrong with the artifact.
-/

namespace FileLore.Cache

open Disk

variable {cache : Cache} {category : Namespace} {path payload : String} {disk : Disk}
  {here : Location} {temporary artifact : Option ByteArray}

/-! ## The temporary file beside the artifact -/

/-- A key has as many bytes as the path, since a slash and a low line have one each. -/
theorem utf8ByteSize_key (path : String) : (key path).utf8ByteSize = path.utf8ByteSize := by
  rw [key, String.utf8ByteSize_ofList]
  conv_rhs => rw [← String.ofList_toList (s := path), String.utf8ByteSize_ofList]
  induction path.toList with
  | nil => rfl
  | cons c text ih =>
    have hsize : (if c = '/' then '_' else c).utf8Size = c.utf8Size := by
      split
      next h => rw [h]; rfl
      next => rfl
    rw [List.map_cons, String.utf8Len_cons, String.utf8Len_cons, ih, hsize]

theorem utf8ByteSize_artifactName (category : Namespace) (path : String) :
    (artifactName category path).utf8ByteSize =
      path.utf8ByteSize + category.tag.utf8ByteSize + 6 := by
  rw [artifactName, String.utf8ByteSize_append, String.utf8ByteSize_append,
    String.utf8ByteSize_append, utf8ByteSize_key, show "_".utf8ByteSize = 1 from rfl,
    show ".json".utf8ByteSize = 5 from rfl]
  omega

/-- The name of an artifact holds a NUL just if the path does. -/
theorem nul_mem_artifactName (category : Namespace) (path : String) :
    '\x00' ∈ (artifactName category path).toList ↔ '\x00' ∈ path.toList := by
  have hrest : '\x00' ∉ '_' :: category.tag.toList ++ ".json".toList := by
    cases category <;> decide
  rw [artifactName_toList, List.append_assoc, List.mem_append, or_iff_left hrest, key,
    String.toList_ofList, List.mem_map]
  constructor
  · rintro ⟨c, hc, hnul⟩
    split at hnul
    next => exact absurd hnul (by decide)
    next => exact hnul ▸ hc
  · intro h
    exact ⟨_, h, by decide⟩

theorem utf8ByteSize_temporaryName (category : Namespace) (path : String) :
    (temporaryName category path).utf8ByteSize = (artifactName category path).utf8ByteSize + 5 := by
  rw [temporaryName, String.utf8ByteSize_append, String.utf8ByteSize_append,
    show ".".utf8ByteSize = 1 from rfl, show ".tmp".utf8ByteSize = 4 from rfl]
  omega

theorem utf8ByteSize_temporaryPath (cache : Cache) (category : Namespace) (path : String) :
    (cache.temporaryPath category path).utf8ByteSize =
      (cache.artifactPath category path).utf8ByteSize + 5 := by
  rw [temporaryPath, (isPlain_temporaryName category path).join_eq, artifactPath,
    (isPlain_artifactName category path).join_eq]
  simp only [String.utf8ByteSize_append, utf8ByteSize_temporaryName]
  omega

/-- The path of the temporary file holds no characters but those of the artifact's and those of
`.tmp`. -/
theorem nul_mem_temporaryPath (cache : Cache) (category : Namespace) (path : String) :
    '\x00' ∈ (cache.temporaryPath category path).toList ↔
      '\x00' ∈ (cache.artifactPath category path).toList := by
  rw [temporaryPath, (isPlain_temporaryName category path).join_eq, artifactPath,
    (isPlain_artifactName category path).join_eq, String.toList_append, temporaryName_toList,
    String.toList_append]
  simp

/-- **The temporary file is taken just if there is room for five more bytes** than the name and the
path of the artifact have. -/
theorem takes_temporaryName_iff (cache : Cache) (category : Namespace) (path : String) :
    Takes cache.root (temporaryName category path) ↔
      '\x00' ∉ (cache.artifactPath category path).toList ∧
        (artifactName category path).utf8ByteSize + 5 ≤ greatestName ∧
        (cache.artifactPath category path).utf8ByteSize + 5 < pathLimit := by
  have hne : cache.temporaryPath category path ≠ "" := by
    intro h
    have hsize := utf8ByteSize_temporaryPath cache category path
    rw [h, String.utf8ByteSize_empty] at hsize
    omega
  rw [← nul_mem_temporaryPath, ← utf8ByteSize_temporaryPath, ← utf8ByteSize_temporaryName]
  constructor
  · rintro ⟨husable, hshort⟩
    obtain ⟨hnul, -, hpath⟩ := unusable?_eq_none.mp husable
    exact ⟨hnul, hshort, hpath⟩
  · rintro ⟨hnul, hshort, hpath⟩
    exact ⟨unusable?_eq_none.mpr ⟨hnul, hne, hpath⟩, hshort⟩

/-! ## Storing -/

/-- Where the system takes the temporary file, storing puts the text into the artifact. -/
theorem Desk.store (payload : String) (hdesk : cache.Desk category path disk temporary artifact)
    (ht : Takes cache.root (temporaryName category path)) :
    ∃ last, (cache.store category path payload).run disk =
        (.ok (cache.artifactPath category path), last) ∧
      cache.Desk category path last none (some payload.toUTF8) := by
  obtain ⟨written, hwrite, hdesk'⟩ := hdesk.write ht payload.toUTF8
  obtain ⟨last, hmove, hdesk''⟩ := hdesk'.move ht
  refine ⟨last, ?_, hdesk''⟩
  rw [store_eq, FileTask.run_perform, hdesk.create ht]
  dsimp only
  rw [writeTask, FileTask.run_perform, hwrite]
  dsimp only
  rw [moveTask, FileTask.run_perform, hmove]
  rfl

/-- Where the system does not take the temporary file, storing in a root that is there fails, and
changes nothing. -/
theorem store_run_of_not_takes (payload : String) (hf : disk.follow cache.root = .ok here)
    (ht : ¬Takes cache.root (temporaryName category path)) :
    ∃ reason, (cache.store category path payload).run disk = (.error reason, disk) := by
  have hwrite {mid written : Disk} {part : ByteArray}
      (h : mid.changeFile (cache.temporaryPath category path) (fun _ => part) = .ok written) :
      False :=
    ht (changeFile_join_ok (isPlain_temporaryName category path) h).1
  obtain ⟨log, hends⟩ := FileTask.ends_run (cache.store category path payload) disk
  generalize (cache.store category path payload).run disk = result at hends ⊢
  obtain ⟨value, last⟩ := result
  obtain ⟨mid, hmade, hdone⟩ := store_stops hends.stops
  obtain rfl := hmade.eq_of_follow hf
  -- Both what replaces an artifact and what leaves something behind begins with the write.
  rcases hdone with ⟨-, written, h, -⟩ | ⟨hmem, rfl | ⟨part, written, h, -⟩⟩
  · exact (hwrite h).elim
  · obtain ⟨reason, rfl⟩ := ((store_ends hends).resolve_left fun h => hmem h.1).2
    exact ⟨reason, rfl⟩
  · exact (hwrite h).elim

theorem storeText_run (cache : Cache) (category : Namespace) (path payload : String) (disk : Disk) :
    (cache.storeText category path payload).run disk =
      (isStored ((cache.store category path payload).run disk).1,
        ((cache.store category path payload).run disk).2) := by
  rw [storeText, FileTask.run_bind, FileTask.run_pure]

/-- **What can be stored.** In a root that is there, with no directory in the way of the artifact
and of the temporary file, and with nothing that fails, storing succeeds just if five more bytes fit
into the name and into the path of the artifact. Then the text is read afterwards; otherwise nothing
has changed. -/
theorem storeText_iff_room (cache : Cache) (category : Namespace) (path payload : String)
    (disk : Disk) {here : Location} (hroot : disk.follow cache.root = .ok here)
    (hdir : disk.isDirectory here = true)
    (htemporary : disk.at? (here ++ [temporaryName category path]) ≠ some .directory)
    (hartifact : disk.at? (here ++ [artifactName category path]) ≠ some .directory) :
    ∃ stored last, (cache.storeText category path payload).run disk = (stored, last) ∧
      (stored = true ↔ '\x00' ∉ (cache.artifactPath category path).toList ∧
        (artifactName category path).utf8ByteSize + 5 ≤ greatestName ∧
        (cache.artifactPath category path).utf8ByteSize + 5 < pathLimit) ∧
      (stored = true → (cache.read category path).run last = (.ok (some payload), last)) ∧
      (stored = false → last = disk) := by
  rw [← takes_temporaryName_iff, storeText_run]
  by_cases ht : Takes cache.root (temporaryName category path)
  · obtain ⟨temporary, htemporary⟩ := exists_file_of_ne htemporary
    obtain ⟨artifact, hartifact⟩ := exists_file_of_ne hartifact
    have hdesk : cache.Desk category path disk temporary artifact :=
      ⟨here, hroot, hdir, htemporary, hartifact⟩
    obtain ⟨last, hrun, hdesk'⟩ := hdesk.store payload ht
    rw [hrun]
    exact ⟨true, last, rfl, by simp [ht], fun _ => hdesk'.read (takes_artifactName ht), nofun⟩
  · obtain ⟨reason, hrun⟩ := store_run_of_not_takes payload hroot ht
    rw [hrun]
    exact ⟨false, disk, rfl, by simp [ht], nofun, fun _ => rfl⟩

/-- A path whose artifact has the longest name that a system takes. -/
def longPath : String := "src/" ++ String.ofList (List.replicate 239 'a')

theorem utf8ByteSize_longPath : longPath.utf8ByteSize = 243 := by
  have hletters (count : Nat) : String.utf8Len (List.replicate count 'a') = count := by
    induction count with
    | zero => rfl
    | succ count ih =>
      rw [List.replicate_succ, String.utf8Len_cons, ih]
      rfl
  rw [longPath, String.utf8ByteSize_append, String.utf8ByteSize_ofList (List.replicate _ _),
    hletters]
  rfl

theorem takes_longPath : Takes "kb" (artifactName .impact longPath) := by
  have hsize : (artifactName .impact longPath).utf8ByteSize = 255 := by
    rw [utf8ByteSize_artifactName, utf8ByteSize_longPath]
    rfl
  have hnul : '\x00' ∉ (artifactName .impact longPath).toList := by
    rw [nul_mem_artifactName, longPath, String.toList_append,
      @String.toList_ofList (List.replicate _ _), List.mem_append, List.mem_replicate]
    decide
  refine ⟨unusable?_eq_none.mpr ?_, hsize.le⟩
  rw [(isPlain_artifactName .impact longPath).join_eq]
  refine ⟨?_, ?_, ?_⟩
  · rw [String.toList_append, List.mem_append, not_or]
    exact ⟨by decide, hnul⟩
  · simp
  · rw [String.utf8ByteSize_append, hsize]
    decide

/-- Nothing can be stored for it, although its artifact can stand in the root. -/
theorem storeText_iff_room_longPath :
    let root : Disk := ⟨[(["kb"], .directory)], []⟩
    Takes "kb" (artifactName .impact longPath) ∧
      ((Cache.mk "kb").storeText .impact longPath "1").run root = (false, root) := by
  intro root
  obtain ⟨stored, last, hrun, hroom, -, hsame⟩ :=
    storeText_iff_room ⟨"kb"⟩ .impact longPath "1" root
      (show root.follow "kb" = .ok ["kb"] from rfl) rfl nofun nofun
  cases stored with
  | true =>
    have hshort := (hroom.mp rfl).2.1
    rw [utf8ByteSize_artifactName, utf8ByteSize_longPath] at hshort
    exact absurd hshort (by decide)
  | false =>
    obtain rfl := hsame rfl
    exact ⟨takes_longPath, hrun⟩

end FileLore.Cache
