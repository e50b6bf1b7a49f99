import FileLore.Proofs.Store.Reading

/-!
# The last write counts

A cache whose root nobody else touches behaves like a map from namespaces and
keys to texts: after any number of calls that store something, some of which may
have failed at any point and for any reason, reading gives the text of the last
call that reported success for the same namespace and key (`read_history`).

Two facts carry this through a whole history. A disk is `IsSteady` for the root
if making the directories of the root brings no artifact to light: either the
root can be reached, or it is missing from a directory of a tree. And a call
changes no artifact but its own, which it replaces as a whole just if it reports
success (`call_standing`).
-/

namespace FileLore.Cache

open Disk

/-- A call that stores something and reports whether it was stored. -/
inductive Call where
  | text (category : Namespace) (path payload : String)
  | context (path : String) (value : Context)

namespace Call

def category : Call → Namespace
  | text category _ _ => category
  | context _ _ => .context

def path : Call → String
  | text _ path _ => path
  | context path _ => path

/-- The text that the call stores. -/
def payload : Call → String
  | text _ _ payload => payload
  | context _ value => value.storedText

/-- What the call does. -/
def task (cache : Cache) : Call → FileTask Bool
  | text category path payload => cache.storeText category path payload
  | context path value => do return isStored (← cache.storeContext path value)

theorem task_eq (cache : Cache) (call : Call) :
    call.task cache =
      cache.store call.category call.path call.payload >>= fun result =>
        pure (isStored result) := by
  cases call <;> rfl

end Call

variable {cache : Cache} {category : Namespace} {path payload name : String}
  {disk next last : Disk}

/-- Whether a change leaves the root alone: whatever stands there stands there still, and its path
leads there still or is missing still. -/
structure Untouched (cache : Cache) (disk next : Disk) : Prop where
  tree : disk.IsTree → next.IsTree
  missing : disk.IsMissing cache.root → next.IsMissing cache.root
  reached : ∀ here, disk.follow cache.root = .ok here → next.follow cache.root = .ok here
  standing : ∀ name, IsPlain name →
    next.standing (Path.join cache.root name) = disk.standing (Path.join cache.root name)

/-- Calls that follow one another, each with what it reports. Between two calls anything may happen
that leaves the root alone. -/
inductive History (cache : Cache) : Disk → List (Call × Bool) → Disk → Prop where
  | start (disk : Disk) : History cache disk [] disk
  | elsewhere {disk mid last : Disk} {calls : List (Call × Bool)}
    (h : cache.Untouched disk mid) (others : History cache mid calls last) :
    History cache disk calls last
  | call {disk mid last : Disk} {call : Call} {stored : Bool} {log : List Operation}
    {calls : List (Call × Bool)} (first : (call.task cache).Ends disk log stored mid)
    (others : History cache mid calls last) :
    History cache disk ((call, stored) :: calls) last

/-- Whether a call that was reported as stored is for the artifact of a path. -/
def settles (category : Namespace) (path : String) (entry : Call × Bool) : Bool :=
  entry.2 && entry.1.category == category && key entry.1.path == key path

/-- The text of the last call that was reported as stored for the artifact of a path. -/
def lastStored? (calls : List (Call × Bool)) (category : Namespace) (path : String) :
    Option String :=
  (calls.reverse.find? (settles category path)).map (·.1.payload)

@[simp] theorem lastStored?_nil (category : Namespace) (path : String) :
    lastStored? [] category path = none := rfl

theorem lastStored?_cons (entry : Call × Bool) (calls : List (Call × Bool)) (category : Namespace)
    (path : String) :
    lastStored? (entry :: calls) category path =
      (lastStored? calls category path).or
        (if settles category path entry then some entry.1.payload else none) := by
  rw [lastStored?, List.reverse_cons, List.find?_append, lastStored?]
  cases calls.reverse.find? (settles category path) with
  | some found => rfl
  | none => cases h : settles category path entry <;> simp [h]

/-! ## Roots that bring nothing to light -/

/-- Whether making the directories of the root brings no artifact to light. -/
def IsSteady (cache : Cache) (disk : Disk) : Prop :=
  (∃ here, disk.follow cache.root = .ok here) ∨ (disk.IsTree ∧ disk.IsMissing cache.root)

/-- Making directories of a steady root leaves it steady and what stands in it alone. -/
theorem IsSteady.made (h : cache.IsSteady disk)
    (hmade : Made (Path.ancestors cache.root) disk next) :
    cache.IsSteady next ∧ ∀ name, IsPlain name →
      next.standing (Path.join cache.root name) = disk.standing (Path.join cache.root name) := by
  rcases h with ⟨here, hf⟩ | ⟨htree, hmissing⟩
  · rw [hmade.eq_of_follow hf]
    exact ⟨Or.inl ⟨here, hf⟩, fun _ _ => rfl⟩
  · rcases hmade.cases_of_missing htree hmissing with rfl | ⟨home, hf, hempty⟩
    · exact ⟨Or.inr ⟨htree, hmissing⟩, fun _ _ => rfl⟩
    · refine ⟨Or.inl ⟨home, hf⟩, fun name hname => ?_⟩
      rw [standing_join_of_error hname hmissing.1]
      funext below
      by_cases ht : Takes cache.root name
      · rw [standing_join hname ht hf, hempty name]
        rfl
      · rw [standing_join_of_not_takes hname ht]

/-- A root in which the temporary file is written can be reached, also afterwards. -/
theorem write_follow {part : ByteArray}
    (h : disk.changeFile (cache.temporaryPath category path) (fun _ => part) = .ok next) :
    ∃ here, next.follow cache.root = .ok here := by
  obtain ⟨-, here, old, hf, hat, rfl⟩ :=
    changeFile_join_ok (isPlain_temporaryName category path) h
  exact ⟨here, follow_mono (keepsDirectories_put hat _) hf⟩

theorem Littered.follow (h : cache.Littered category path disk next) :
    next = disk ∨ ∃ here, next.follow cache.root = .ok here := by
  rcases h with rfl | ⟨part, written, hwrite, hremove⟩
  · exact Or.inl rfl
  · obtain ⟨there, hthere⟩ := write_follow hwrite
    rcases hremove with hremove | rfl
    · obtain ⟨here, content, hf, hat, rfl⟩ :=
        deleteFile_join_ok (isPlain_temporaryName category path) hremove
      exact Or.inr ⟨here, follow_mono (keepsDirectories_erase (by rw [hat]; nofun)) hf⟩
    · exact Or.inr ⟨there, hthere⟩

theorem Replaced.follow (h : cache.Replaced category path payload disk next) :
    ∃ here, next.follow cache.root = .ok here := by
  obtain ⟨written, -, hmove⟩ := h
  obtain ⟨-, -, here, content, hf, hat, hat', rfl⟩ := moveFile_join_ok
    (isPlain_temporaryName category path) (isPlain_artifactName category path) hmove
  have hkeep := keepsDirectories_move (temporaryName_ne category category path path)
    (by rw [hat]; nofun) hat' (.file content)
  exact ⟨here, follow_mono hkeep hf⟩

/-! ## One call -/

/-- The file that a call leaves as the artifact of a path, if it is for this artifact and reports
that it has stored it. -/
def written? (category : Namespace) (path : String) (entry : Call × Bool) : Option String :=
  if settles category path entry then some entry.1.payload else none

/-- The file with a text. -/
def textFile (text : String) : Entry := .file text.toUTF8

/-- **A call leaves its text as its artifact, if it reports so, and changes no other artifact**; the
root stays steady. -/
theorem call_standing {call : Call} {stored : Bool} {log : List Operation}
    (hsteady : cache.IsSteady disk) (h : (call.task cache).Ends disk log stored last) :
    cache.IsSteady last ∧ ∀ category path,
      last.standing (cache.artifactPath category path) [] =
        ((written? category path (call, stored)).map textFile).or
          (disk.standing (cache.artifactPath category path) []) := by
  rw [Call.task_eq] at h
  obtain ⟨result, mid, before, after, hstore, hreport, -⟩ := h.of_bind
  cases hreport
  obtain ⟨made, hmade, hdone⟩ := store_stops hstore.stops
  obtain ⟨hsteady', hsame⟩ := hsteady.made hmade
  rcases store_ends hstore with ⟨hmem, rfl⟩ | ⟨hmem, reason, rfl⟩
  · -- Stored: the artifact is new, every other is what it was once the root had been made.
    obtain ⟨-, hreplaced⟩ := hdone.resolve_right fun hno => hno.1 hmem
    refine ⟨Or.inl hreplaced.follow, fun category path => ?_⟩
    by_cases hmatch : call.category = category ∧ key call.path = key path
    · have hpath : cache.artifactPath category path = cache.artifactPath call.category call.path :=
        (artifactPath_inj cache).mpr ⟨hmatch.1.symm, hmatch.2.symm⟩
      rw [hpath, hreplaced.standing.1]
      simp [written?, settles, isStored, hmatch.1, hmatch.2, textFile]
    · have hname : artifactName category path ≠ artifactName call.category call.path := fun h =>
        hmatch ((artifactName_inj.mp h).imp Eq.symm Eq.symm)
      have hplain := isPlain_artifactName category path
      rw [artifactPath, hreplaced.standing.2 _ hplain (temporaryName_ne _ _ _ _) hname,
        hsame _ hplain]
      have hno : settles category path (call, true) = false := by
        simpa [settles] using hmatch
      simp [written?, isStored, hno]
  · -- Not stored: no artifact is touched, whatever the failure was.
    obtain ⟨-, hlittered⟩ := hdone.resolve_left fun hyes => hmem hyes.1
    refine ⟨?_, fun category path => ?_⟩
    · rcases hlittered.follow with rfl | hreach
      · exact hsteady'
      · exact Or.inl hreach
    · have hplain := isPlain_artifactName category path
      rw [artifactPath, hlittered.standing hplain (temporaryName_ne _ _ _ _), hsame _ hplain]
      simp [written?, settles, isStored]

/-! ## Whole histories -/

/-- After any history an artifact is the text of the last call that was reported as stored for it,
or what it was before if there is no such call. -/
theorem history_standing {calls : List (Call × Bool)} (h : cache.History disk calls last)
    (hsteady : cache.IsSteady disk) :
    cache.IsSteady last ∧ ∀ category path,
      last.standing (cache.artifactPath category path) [] =
        ((lastStored? calls category path).map textFile).or
          (disk.standing (cache.artifactPath category path) []) := by
  induction h with
  | start disk =>
    refine ⟨hsteady, fun category path => ?_⟩
    rw [lastStored?_nil, Option.map_none, Option.none_or]
  | @elsewhere disk mid last calls h _ ih =>
    have hmid : cache.IsSteady mid := by
      rcases hsteady with ⟨here, hf⟩ | ⟨htree, hmissing⟩
      · exact Or.inl ⟨here, h.reached here hf⟩
      · exact Or.inr ⟨h.tree htree, h.missing hmissing⟩
    obtain ⟨hlast, hstanding⟩ := ih hmid
    refine ⟨hlast, fun category path => ?_⟩
    rw [hstanding, artifactPath, h.standing _ (isPlain_artifactName category path)]
  | call first _ ih =>
    obtain ⟨hmid, hcall⟩ := call_standing hsteady first
    obtain ⟨hlast, hstanding⟩ := ih hmid
    refine ⟨hlast, fun category path => ?_⟩
    rw [hstanding, hcall, lastStored?_cons, Option.map_or, Option.or_assoc]
    rfl

/-! ## Reading -/

/-- Reading on a steady disk yields the text that stands as the artifact, if a system takes its
path. -/
theorem read_of_standing {text : Option String} (hsteady : cache.IsSteady disk)
    (ht : Takes cache.root (artifactName category path))
    (hstanding : disk.standing (cache.artifactPath category path) [] = text.map textFile) :
    (cache.read category path).run disk = (.ok text, disk) := by
  have hplain := isPlain_artifactName category path
  rw [read_run]
  rcases hsteady with ⟨here, hf⟩ | ⟨-, hmissing, -⟩
  · have hat : disk.at? (here ++ [artifactName category path]) = text.map textFile := by
      rw [← hstanding, artifactPath, standing_join hplain ht hf]
      cases disk.at? (here ++ [artifactName category path]) <;> rfl
    rw [artifactPath, contentOf_join hplain ht hf, hat]
    cases text with
    | none => rfl
    | some text =>
      simp only [Option.map_some, textFile]
      rw [Text.fromUTF8?_toUTF8]
  · -- The root is still missing, so every call has failed and nothing is read.
    rw [artifactPath, standing_join_of_error hplain hmissing] at hstanding
    obtain rfl := Option.map_eq_none_iff.mp hstanding.symm
    rw [artifactPath, contentOf_join_of_error hplain ht hmissing]

/-- Whether a cache can be opened on a disk: its root has nothing in it, or it is missing from a
directory that is there. -/
def OpensOn (cache : Cache) (disk : Disk) : Prop :=
  (∃ here, disk.follow cache.root = .ok here ∧ ∀ name, disk.at? (here ++ [name]) = none) ∨
    disk.IsMissing cache.root

/-- No artifact stands where a cache can be opened. -/
theorem OpensOn.standing (h : cache.OpensOn disk) (category : Namespace) (path : String) :
    disk.standing (cache.artifactPath category path) [] = none := by
  have hplain := isPlain_artifactName category path
  rcases h with ⟨here, hf, hempty⟩ | hmissing
  · by_cases ht : Takes cache.root (artifactName category path)
    · rw [artifactPath, standing_join hplain ht hf, hempty]
      rfl
    · rw [artifactPath, standing_join_of_not_takes hplain ht]
  · rw [artifactPath, standing_join_of_error hplain hmissing.1]

/-- **The last write counts.** After any history of calls on a cache that was opened on a tree,
reading an artifact whose path a system takes yields the text of the last call that was reported as
stored for this artifact, and nothing if there is none. Two pairs of namespace and path share an
artifact just if the namespaces and the keys are equal, and no temporary file stands in the place of
an artifact. -/
theorem read_history {calls : List (Call × Bool)} (htree : disk.IsTree) (hopen : cache.OpensOn disk)
    (hcalls : cache.History disk calls last) :
    (∀ category path, Takes cache.root (artifactName category path) →
      (cache.read category path).run last = (.ok (lastStored? calls category path), last)) ∧
    (∀ category other path another,
      cache.artifactPath category path = cache.artifactPath other another ↔
        category = other ∧ key path = key another) ∧
    ∀ category other path another,
      cache.artifactPath other another ≠ cache.temporaryPath category path := by
  refine ⟨fun category path ht => ?_, fun _ _ _ _ => artifactPath_inj cache, temporaryPath_ne cache⟩
  have hsteady : cache.IsSteady disk := by
    rcases hopen with ⟨here, hf, -⟩ | hmissing
    · exact Or.inl ⟨here, hf⟩
    · exact Or.inr ⟨htree, hmissing⟩
  obtain ⟨hlast, hstanding⟩ := history_standing hcalls hsteady
  refine read_of_standing hlast ht ?_
  rw [hstanding, hopen.standing, Option.or_none]

/-- A call that meets no failure but those that the disk shows can begin a history. -/
theorem History.run (call : Call) {calls : List (Call × Bool)}
    (others : cache.History ((call.task cache).run disk).2 calls last) :
    cache.History disk ((call, ((call.task cache).run disk).1) :: calls) last := by
  obtain ⟨log, h⟩ := FileTask.ends_run (call.task cache) disk
  exact History.call h others

/-- Of two texts stored under one key and a third for which there is no space, the second is read. -/
theorem read_history_kb :
    (⟨[], []⟩ : Disk).IsTree ∧ OpensOn ⟨"kb"⟩ ⟨[], []⟩ ∧
      ∃ last, History ⟨"kb"⟩ ⟨[], []⟩ [(.text .impact "a/b" "1", true),
          (.text .impact "a_b" "2", true), (.text .impact "a/b" "3", false)] last ∧
        Takes "kb" (artifactName .impact "a/b") ∧
        (read ⟨"kb"⟩ .impact "a/b").run last = (.ok (some "2"), last) := by
  have hopen : OpensOn ⟨"kb"⟩ ⟨[], []⟩ := Or.inr ⟨rfl, "", [], by decide, rfl⟩
  have ht : Takes "kb" (artifactName .impact "a/b") := ⟨by decide, by decide⟩
  let first := (Call.text .impact "a/b" "1").task ⟨"kb"⟩
  let second := (Call.text .impact "a_b" "2").task ⟨"kb"⟩
  have hfirst : (first.run ⟨[], []⟩).1 = true := by decide +kernel
  have hsecond : (second.run (first.run ⟨[], []⟩).2).1 = true := by decide +kernel
  have hlast (disk : Disk) :
      History ⟨"kb"⟩ disk [(.text .impact "a/b" "3", false)] disk :=
    History.call (FileTask.Ends.step (.failed (.other "No space left on device") (.nothing _))
      (FileTask.Ends.done false disk)) (History.start disk)
  have hcalls := History.run (.text .impact "a/b" "1")
    (History.run (.text .impact "a_b" "2") (hlast (second.run (first.run ⟨[], []⟩).2).2))
  rw [hfirst, hsecond] at hcalls
  exact ⟨isTree_empty [], hopen, _, hcalls, ht,
    (read_history (isTree_empty []) hopen hcalls).1 .impact "a/b" ht⟩

/-! ## Roots with long paths -/

/-- A path to the working directory that is as long as one likes. -/
def longHere : Nat → String
  | 0 => "."
  | slashes + 1 => longHere slashes ++ "/"

theorem utf8ByteSize_longHere (slashes : Nat) :
    (longHere slashes).utf8ByteSize = slashes + 1 := by
  induction slashes with
  | zero => rfl
  | succ slashes ih =>
    rw [longHere, String.utf8ByteSize_append, ih]
    rfl

theorem toList_longHere (slashes : Nat) :
    (longHere slashes).toList = '.' :: List.replicate slashes '/' := by
  induction slashes with
  | zero => rfl
  | succ slashes ih =>
    rw [longHere, String.toList_append, ih, List.replicate_succ']
    rfl

/-- The slashes at its end lead nowhere else. -/
theorem follow_longHere (disk : Disk) (slashes : Nat) :
    disk.follow (longHere slashes) = .ok disk.workingDirectory := by
  have hnames : pathNames (longHere slashes) = ["."] := by
    rw [pathNames_eq, toList_longHere]
    induction slashes with
    | zero => rfl
    | succ slashes ih => rw [List.replicate_succ', ← List.cons_append, namesOf_slash, ih]
  rw [follow, hnames, startOf, toList_longHere]
  rfl

/-- No system takes a name in such a path if both together are too long. -/
theorem unusable?_longHere {slashes : Nat} (h : IsPlain name) (hnul : '\x00' ∉ name.toList)
    (hlong : pathLimit ≤ slashes + 2 + name.utf8ByteSize) :
    unusable? (Path.join (longHere (slashes + 1)) name) = some .tooLong := by
  have hjoin : Path.join (longHere (slashes + 1)) name = longHere (slashes + 1) ++ name := by
    have hlast : (longHere (slashes + 1)).toList.getLast? = some '/' := by
      rw [longHere, String.toList_append]
      exact List.getLast?_concat ..
    simp [h.join_eq, slashAfter, hlast]
  have hnul' : '\x00' ∉ (longHere (slashes + 1) ++ name).toList := by
    simp [toList_longHere, hnul]
  have hne : (longHere (slashes + 1) ++ name).isEmpty = false := by
    simp [longHere]
  rw [hjoin, unusable?, if_neg (by simpa using hnul'), hne, if_neg Bool.false_ne_true, if_pos]
  rwa [String.utf8ByteSize_append, utf8ByteSize_longHere]

/-- A legal file name is not enough for an artifact to be read: the root counts as well. -/
theorem not_read_history_of_legal_name :
    ¬∀ (cache : Cache) (disk last : Disk) (calls : List (Call × Bool)), disk.IsTree →
      cache.OpensOn disk → cache.History disk calls last →
        ∀ category path, (artifactName category path).utf8ByteSize ≤ greatestName →
          '\x00' ∉ (artifactName category path).toList →
            (cache.read category path).run last = (.ok (lastStored? calls category path), last) := by
  intro h
  obtain ⟨slashes, hslashes⟩ : ∃ slashes, slashes + 2 = 4095 := ⟨4093, rfl⟩
  have hopen : OpensOn ⟨longHere (slashes + 1)⟩ ⟨[], []⟩ :=
    Or.inl ⟨[], follow_longHere ⟨[], []⟩ (slashes + 1), fun _ => rfl⟩
  have hread := h _ _ _ _ (isTree_empty []) hopen (History.start _) .context "x" (by decide)
    (by decide)
  have hu : unusable? (Path.join (longHere (slashes + 1)) (artifactName .context "x")) = _ :=
    unusable?_longHere (isPlain_artifactName .context "x") (by decide)
      (by rw [hslashes]; decide)
  rw [read_run, artifactPath, contentOf, find?, destination?, hu] at hread
  cases hread

end FileLore.Cache
