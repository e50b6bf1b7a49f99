import FileLore.Proofs.Disk.Failure
import FileLore.Proofs.Store.Name

/-!
# The steps of storing

Storing an artifact makes the root, writes the temporary file and moves it into
place; if it cannot be moved, it is removed. This file takes the task apart into
these steps (`store_eq`) and says what each of them does to what stands in the
root. Every step leaves alone what has neither the name of the temporary file nor
that of the artifact, and only a move that succeeds touches the artifact
(`move_standing`).
-/

namespace FileLore.Cache

open Disk

variable {cache : Cache} {category : Namespace} {path payload name : String} {disk next : Disk}

/-- The rest of storing an artifact, after the temporary file has been written. -/
def moveTask (cache : Cache) (category : Namespace) (path : String) :
    FileTask (Except Error String) :=
  .perform (.rename (cache.temporaryPath category path) (cache.artifactPath category path)) fun
    | .ok _ => .done (.ok (cache.artifactPath category path))
    | .error cause =>
      .perform (.removeFile (cache.temporaryPath category path)) fun _ =>
        .done (.error (.io (cache.artifactPath category path) cause))

/-- The rest of storing an artifact, after the root has been made. -/
def writeTask (cache : Cache) (category : Namespace) (path payload : String) :
    FileTask (Except Error String) :=
  .perform (.writeFile (cache.temporaryPath category path) payload.toUTF8) fun
    | .error cause => .done (.error (.io (cache.temporaryPath category path) cause))
    | .ok _ => cache.moveTask category path

/-- Storing an artifact is making the root, writing the temporary file and moving it. -/
theorem store_eq (cache : Cache) (category : Namespace) (path payload : String) :
    cache.store category path payload =
      .perform (.createDirectories cache.root) fun
        | .error cause => .done (.error (.io cache.root cause))
        | .ok _ => cache.writeTask category path payload := by
  refine congrArg (FileTask.perform _) (funext fun answer => ?_)
  cases answer with
  | error cause => rfl
  | ok _ =>
    refine congrArg (FileTask.perform _) (funext fun answer => ?_)
    cases answer with
    | error cause => rfl
    | ok _ =>
      refine congrArg (FileTask.perform _) (funext fun answer => ?_)
      cases answer <;> rfl

/-! ## What storing can do -/

/-- The operation that puts an artifact in its place. -/
def placing (cache : Cache) (category : Namespace) (path : String) : Operation :=
  .rename (cache.temporaryPath category path) (cache.artifactPath category path)

/-- Whether a disk comes about by writing something to the temporary file, which may have been
removed since, or by nothing at all. -/
def Littered (cache : Cache) (category : Namespace) (path : String) (disk next : Disk) : Prop :=
  next = disk ∨ ∃ part written,
    disk.changeFile (cache.temporaryPath category path) (fun _ => part) = .ok written ∧
      (written.deleteFile (cache.temporaryPath category path) = .ok next ∨ next = written)

/-- Whether a disk comes about by writing a text to the temporary file and moving it into place. -/
def Replaced (cache : Cache) (category : Namespace) (path payload : String) (disk next : Disk) :
    Prop :=
  ∃ written,
    disk.changeFile (cache.temporaryPath category path) (fun _ => payload.toUTF8) = .ok written ∧
      written.moveFile (cache.temporaryPath category path) (cache.artifactPath category path) =
        .ok next

/-- Where moving the temporary file can be interrupted. -/
theorem moveTask_stops {log : List Operation}
    (h : (cache.moveTask category path).Stops disk log next) :
    (cache.placing category path ∈ log ∧
        disk.moveFile (cache.temporaryPath category path) (cache.artifactPath category path) =
          .ok next) ∨
      (cache.placing category path ∉ log ∧
        (disk.deleteFile (cache.temporaryPath category path) = .ok next ∨ next = disk)) := by
  cases h with
  | within h =>
    cases h
    exact Or.inr ⟨List.not_mem_nil, Or.inr rfl⟩
  | step first others =>
    rcases first.rename with ⟨rfl, hmove⟩ | ⟨⟨reason, rfl⟩, rfl⟩
    · -- Nothing is left to do after the move.
      cases others
      exact Or.inl ⟨List.mem_cons_self .., hmove⟩
    · cases others with
      | within h =>
        cases h
        exact Or.inr ⟨List.not_mem_nil, Or.inr rfl⟩
      | @step _ _ _ mid _ answer _ first others =>
        cases others
        refine Or.inr ⟨?_, first.removeFile⟩
        cases answer <;> simp [FileTask.succeeded, placing]

/-- Where storing in a root that is there can be interrupted. -/
theorem writeTask_stops {log : List Operation}
    (h : (cache.writeTask category path payload).Stops disk log next) :
    (cache.placing category path ∈ log ∧ cache.Replaced category path payload disk next) ∨
      (cache.placing category path ∉ log ∧ cache.Littered category path disk next) := by
  cases h with
  | within h =>
    refine Or.inr ⟨List.not_mem_nil, ?_⟩
    rcases h.writeFile with rfl | ⟨part, h⟩
    · exact Or.inl rfl
    · exact Or.inr ⟨part, next, h, Or.inr rfl⟩
  | @step _ _ _ mid _ answer _ first others =>
    cases answer with
    | error reason =>
      -- What has been written before the failure is left behind.
      cases others
      refine Or.inr ⟨List.not_mem_nil, ?_⟩
      rcases first.writeFile with rfl | ⟨part, h⟩
      · exact Or.inl rfl
      · exact Or.inr ⟨part, next, h, Or.inr rfl⟩
    | ok answer =>
      have hwrite := first.writeFile_ok rfl
      rcases moveTask_stops others with ⟨hmem, hmove⟩ | ⟨hmem, hremove⟩
      · exact Or.inl ⟨List.mem_cons_of_mem _ hmem, mid, hwrite, hmove⟩
      · refine Or.inr ⟨?_, Or.inr ⟨_, mid, hwrite, hremove⟩⟩
        simpa [FileTask.succeeded, placing] using hmem

/-- **Everything that storing can do**: make directories of the root, and then either replace the
artifact as a whole, or do no more than leave something in the temporary file. -/
theorem store_stops {log : List Operation}
    (h : (cache.store category path payload).Stops disk log next) :
    ∃ mid, Made (Path.ancestors cache.root) disk mid ∧
      ((cache.placing category path ∈ log ∧ cache.Replaced category path payload mid next) ∨
        (cache.placing category path ∉ log ∧ cache.Littered category path mid next)) := by
  rw [store_eq] at h
  cases h with
  | within h => exact ⟨next, h.createDirectories, Or.inr ⟨List.not_mem_nil, Or.inl rfl⟩⟩
  | @step _ _ _ mid _ answer _ first others =>
    refine ⟨mid, first.createDirectories, ?_⟩
    cases answer with
    | error reason =>
      cases others
      exact Or.inr ⟨List.not_mem_nil, Or.inl rfl⟩
    | ok answer =>
      rcases writeTask_stops others with ⟨hmem, hreplaced⟩ | ⟨hmem, hlittered⟩
      · exact Or.inl ⟨List.mem_cons_of_mem _ hmem, hreplaced⟩
      · refine Or.inr ⟨?_, hlittered⟩
        simpa [FileTask.succeeded, placing] using hmem

/-- Storing succeeds just if the artifact has been put in its place. -/
theorem store_ends {log : List Operation} {value : Except Error String}
    (h : (cache.store category path payload).Ends disk log value next) :
    (cache.placing category path ∈ log ∧ value = .ok (cache.artifactPath category path)) ∨
      (cache.placing category path ∉ log ∧ ∃ reason, value = .error reason) := by
  rw [store_eq] at h
  cases h with | @step _ _ _ _ _ created _ _ _ others =>
  cases created with
  | error reason =>
    cases others
    exact Or.inr ⟨List.not_mem_nil, _, rfl⟩
  | ok _ =>
    cases others with | @step _ _ _ _ _ written _ _ _ others =>
    cases written with
    | error reason =>
      cases others
      exact Or.inr ⟨by simp [FileTask.succeeded, placing], _, rfl⟩
    | ok _ =>
      cases others with | @step _ _ _ _ _ moved _ _ _ others =>
      cases moved with
      | ok _ =>
        cases others
        exact Or.inl ⟨by simp [FileTask.succeeded, placing], rfl⟩
      | error reason =>
        cases others with | @step _ _ _ _ _ removed _ _ _ others =>
        cases others
        refine Or.inr ⟨?_, _, rfl⟩
        cases removed <;> simp [FileTask.succeeded, placing]

/-! ## What the steps leave alone -/

/-- Writing the temporary file leaves alone what has another name. -/
theorem write_standing (hname : IsPlain name) (hne : name ≠ temporaryName category path)
    (h : next = disk ∨ ∃ part,
      disk.changeFile (cache.temporaryPath category path) (fun _ => part) = .ok next) :
    next.standing (Path.join cache.root name) = disk.standing (Path.join cache.root name) := by
  rcases h with rfl | ⟨part, h⟩
  · rfl
  · obtain ⟨-, here, old, hf, hat, rfl⟩ :=
      changeFile_join_ok (isPlain_temporaryName category path) h
    exact standing_put_ne hname hne hf hat _

theorem write_standing_self {content : ByteArray}
    (h : disk.changeFile (cache.temporaryPath category path) (fun _ => content) = .ok next) :
    next.standing (cache.temporaryPath category path) [] = some (.file content) := by
  obtain ⟨ht, here, old, hf, hat, rfl⟩ :=
    changeFile_join_ok (isPlain_temporaryName category path) h
  exact standing_put_self (isPlain_temporaryName category path) ht hf hat _

/-- Moving the temporary file puts what it holds in place of the artifact, and leaves alone what has
neither name. -/
theorem move_standing
    (h : disk.moveFile (cache.temporaryPath category path) (cache.artifactPath category path) =
      .ok next) :
    next.standing (cache.artifactPath category path) [] =
        disk.standing (cache.temporaryPath category path) [] ∧
      ∀ name, IsPlain name → name ≠ temporaryName category path →
        name ≠ artifactName category path →
        next.standing (Path.join cache.root name) =
          disk.standing (Path.join cache.root name) := by
  have hplain := isPlain_artifactName category path
  have hplain' := isPlain_temporaryName category path
  obtain ⟨ht, ht', here, content, hf, hat, hat', rfl⟩ := moveFile_join_ok hplain' hplain h
  have hfile : disk.at? (here ++ [temporaryName category path]) ≠ some .directory := by
    rw [hat]
    nofun
  have hf' := follow_mono (keepsDirectories_erase hfile) hf
  have hfree := at?_erase_ne_directory (temporaryName_ne category category path path) hat'
  refine ⟨?_, fun name hname hne hne' => ?_⟩
  · rw [artifactPath, standing_put_self hplain ht' hf' hfree, temporaryPath,
      standing_join hplain' ht hf, hat]
    rfl
  · rw [standing_put_ne hname hne' hf' hfree, standing_erase_ne hname hne hf hfile]

theorem remove_standing (hname : IsPlain name) (hne : name ≠ temporaryName category path)
    (h : disk.deleteFile (cache.temporaryPath category path) = .ok next ∨ next = disk) :
    next.standing (Path.join cache.root name) = disk.standing (Path.join cache.root name) := by
  rcases h with h | rfl
  · obtain ⟨here, content, hf, hat, rfl⟩ :=
      deleteFile_join_ok (isPlain_temporaryName category path) h
    exact standing_erase_ne hname hne hf (by rw [hat]; nofun)
  · rfl

theorem Littered.standing (hname : IsPlain name) (hne : name ≠ temporaryName category path)
    (h : cache.Littered category path disk next) :
    next.standing (Path.join cache.root name) = disk.standing (Path.join cache.root name) := by
  rcases h with rfl | ⟨part, written, hwrite, hremove⟩
  · rfl
  · rw [remove_standing hname hne hremove, write_standing hname hne (Or.inr ⟨part, hwrite⟩)]

/-- An artifact that is replaced holds the text, and nothing else in the root changes. -/
theorem Replaced.standing (h : cache.Replaced category path payload disk next) :
    next.standing (cache.artifactPath category path) [] = some (.file payload.toUTF8) ∧
      ∀ name, IsPlain name → name ≠ temporaryName category path →
        name ≠ artifactName category path →
        next.standing (Path.join cache.root name) =
          disk.standing (Path.join cache.root name) := by
  obtain ⟨written, hwrite, hmove⟩ := h
  obtain ⟨hself, hothers⟩ := move_standing hmove
  refine ⟨by rw [hself, write_standing_self hwrite], fun name hname hne hne' => ?_⟩
  rw [hothers name hname hne hne', write_standing hname hne (Or.inr ⟨_, hwrite⟩)]

end FileLore.Cache
