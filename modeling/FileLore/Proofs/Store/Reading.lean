import FileLore.Proofs.Store.Step
import FileLore.Store.Summary
import FileLore.Text.Utf8

/-!
# Reading what is stored

What reading an artifact yields is a matter of the file that stands as the artifact,
and of nothing else on the disk (`read_run`). If it holds a text (`artifactText?`),
this text is read; otherwise, for whatever reason, nothing can be loaded
(`loaded_read`). A context and a count are decoded from that text, so the summary of
a file is made of two texts (`summary_run`). Reading changes nothing.
-/

namespace FileLore

/-- The text of a file that holds one. -/
def Entry.text? : Entry → Option String
  | .directory => none
  | .file content => String.fromUTF8? content

namespace Cache

open Disk

variable {cache : Cache} {category : Namespace} {path text target payload : String}
  {disk last : Disk} {log : List Operation}

/-- The text that stands as an artifact, if there is one. -/
def artifactText? (cache : Cache) (category : Namespace) (path : String) (disk : Disk) :
    Option String :=
  (disk.standing (cache.artifactPath category path) []).bind Entry.text?

/-- What reading an artifact yields, by what its file holds. -/
theorem read_run (cache : Cache) (category : Namespace) (path : String) (disk : Disk) :
    (cache.read category path).run disk =
      (match disk.contentOf (cache.artifactPath category path) with
        | .error .notFound => .ok none
        | .error cause => .error (.io (cache.artifactPath category path) cause)
        | .ok content =>
          match String.fromUTF8? content with
          | some text => .ok (some text)
          | none => .error (.io (cache.artifactPath category path) .invalidText), disk) := by
  rw [read, FileTask.run_bind, FileTask.readText, FileTask.run_perform, perform]
  cases disk.contentOf (cache.artifactPath category path) with
  | error cause => cases cause <;> rfl
  | ok content =>
    dsimp only
    cases String.fromUTF8? content <;> rfl

/-- An artifact can be read just if a file stands there. -/
theorem contentOf_artifact_iff {content : ByteArray} :
    disk.contentOf (cache.artifactPath category path) = .ok content ↔
      disk.standing (cache.artifactPath category path) [] = some (.file content) :=
  contentOf_join_iff (isPlain_artifactName category path)

/-- **What can be loaded from an artifact is its text.** A file that is missing or out of reach, a
directory in its place, and bytes that are no text all count as nothing. -/
theorem loaded_read (cache : Cache) (category : Namespace) (path : String) (disk : Disk) :
    loaded ((cache.read category path).run disk).1 = cache.artifactText? category path disk := by
  rw [read_run, artifactText?]
  cases hread : disk.contentOf (cache.artifactPath category path) with
  | ok content =>
    rw [contentOf_artifact_iff.mp hread]
    dsimp only [Option.bind_some, Entry.text?]
    cases String.fromUTF8? content <;> rfl
  | error cause =>
    -- Whatever the cause is, no file stands there, or its content could be read.
    have hnone : (disk.standing (cache.artifactPath category path) []).bind Entry.text? = none := by
      cases hat : disk.standing (cache.artifactPath category path) [] with
      | none => rfl
      | some entry =>
        cases entry with
        | directory => rfl
        | file content =>
          rw [contentOf_artifact_iff.mpr hat] at hread
          cases hread
    rw [hnone]
    cases cause <;> rfl

theorem read_disk (cache : Cache) (category : Namespace) (path : String) (disk : Disk) :
    ((cache.read category path).run disk).2 = disk := by
  rw [read_run]

/-- An artifact with a text is read. -/
theorem read_of_text (h : cache.artifactText? category path disk = some text) :
    (cache.read category path).run disk = (.ok (some text), disk) := by
  have hloaded := loaded_read cache category path disk
  rw [h] at hloaded
  refine Prod.ext ?_ (read_disk cache category path disk)
  cases hread : ((cache.read category path).run disk).1 with
  | error reason => rw [hread] at hloaded; cases hloaded
  | ok value =>
    rw [hread] at hloaded
    exact congrArg Except.ok hloaded

/-! ## Contexts and counts -/

/-- What loading a context yields, by what reading its artifact does. -/
theorem loadContext_run (cache : Cache) (path : String) (disk : Disk) :
    (cache.loadContext path).run disk =
      (match ((cache.read .context path).run disk).1 with
        | .error reason => .error reason
        | .ok none => .ok none
        | .ok (some text) =>
          match Context.ofText? text with
          | some context => .ok (some context)
          | none => .error .malformed, disk) := by
  rw [loadContext, FileTask.run_bind, read_disk]
  cases ((cache.read .context path).run disk).1 with
  | error reason => rfl
  | ok value =>
    cases value with
    | none => rfl
    | some text =>
      dsimp only
      cases Context.ofText? text <;> rfl

theorem loaded_loadContext (cache : Cache) (path : String) (disk : Disk) :
    loaded ((cache.loadContext path).run disk).1 =
      (cache.artifactText? .context path disk).bind Context.ofText? := by
  rw [loadContext_run, ← loaded_read]
  cases ((cache.read .context path).run disk).1 with
  | error reason => rfl
  | ok value =>
    cases value with
    | none => rfl
    | some text =>
      dsimp only [loaded, Option.bind_some]
      cases Context.ofText? text <;> rfl

/-- What loading a count yields, by what reading the impact artifact does. -/
theorem loadImpactCount_run (cache : Cache) (path : String) (disk : Disk) :
    (cache.loadImpactCount path).run disk =
      (match ((cache.read .impact path).run disk).1 with
        | .error reason => .error reason
        | .ok none => .ok none
        | .ok (some text) => impactCountOf text, disk) := by
  rw [loadImpactCount, FileTask.run_bind, read_disk]
  cases ((cache.read .impact path).run disk).1 with
  | error reason => rfl
  | ok value => cases value <;> rfl

theorem loaded_loadImpactCount (cache : Cache) (path : String) (disk : Disk) :
    loaded ((cache.loadImpactCount path).run disk).1 =
      (cache.artifactText? .impact path disk).bind fun text => loaded (impactCountOf text) := by
  rw [loadImpactCount_run, ← loaded_read]
  cases ((cache.read .impact path).run disk).1 with
  | error reason => rfl
  | ok value => cases value <;> rfl

/-- **The summary of a file is made of what its two artifacts hold**, and making it changes
nothing. -/
theorem summary_run (cache : Cache) (path : String) (disk : Disk) :
    (cache.summary? path).run disk =
      (FileLore.summary? (loaded ((cache.loadContext path).run disk).1)
        (loaded ((cache.loadImpactCount path).run disk).1), disk) := by
  have hcontext : ((cache.loadContext path).run disk).2 = disk := by rw [loadContext_run]
  have hcount : ((cache.loadImpactCount path).run disk).2 = disk := by rw [loadImpactCount_run]
  rw [summary?, FileTask.run_bind, FileTask.run_bind, FileTask.run_pure, hcontext, hcount]

/-! ## What has been stored -/

/-- **What has been stored stands as the artifact**, whatever stood there before. -/
theorem standing_of_store
    (h : (cache.store category path payload).Ends disk log (.ok target) last) :
    target = cache.artifactPath category path ∧
      last.standing (cache.artifactPath category path) [] = some (.file payload.toUTF8) := by
  obtain ⟨mid, -, hdone⟩ := store_stops h.stops
  rcases store_ends h with ⟨hmem, hvalue⟩ | ⟨-, reason, hvalue⟩
  · obtain ⟨-, hreplaced⟩ := hdone.resolve_right fun hno => hno.1 hmem
    exact ⟨Except.ok.inj hvalue, hreplaced.standing.1⟩
  · cases hvalue

/-- Whoever reports that something was stored has stored it. -/
theorem ends_of_isStored {task : FileTask (Except Error String)}
    (h : (do return isStored (← task) : FileTask Bool).Ends disk log true last) :
    ∃ target log', task.Ends disk log' (.ok target) last := by
  obtain ⟨result, mid, before, after, htask, hreport, -⟩ := h.of_bind
  cases result with
  | error reason => cases hreport
  | ok target =>
    cases hreport
    exact ⟨target, before, htask⟩

theorem artifactText?_of_store
    (h : (cache.store category path payload).Ends disk log (.ok target) last) :
    cache.artifactText? category path last = some payload := by
  rw [artifactText?, (standing_of_store h).2]
  exact Text.fromUTF8?_toUTF8 payload

end Cache

end FileLore
