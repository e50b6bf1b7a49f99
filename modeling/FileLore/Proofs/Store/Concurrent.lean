import FileLore.Proofs.Store.History
import Mathlib.Data.Bool.Basic
import Mathlib.Logic.Function.Basic

/-!
# Two calls at once

Two processes that store under the same key at the same time take turns on the
disk, one operation after the other in any order. They write one and the same
temporary file, so it matters in which order they write and move it
(`store_turns`): if one call moves the file before the other writes it, both
succeed and the last of them counts; if both have written it before it is moved,
whoever moves it first succeeds with the text that was written last, and the
other finds nothing to move and fails. The temporary file also has to be one that
the system takes, which its longer name may prevent where that of the artifact
does not.

The proof goes from the end to the beginning. What matters of a disk are the
contents of the temporary file and of the artifact (`Desk`), and for each pair of
places that the two calls can have come to, one lemma says what comes of them
from there.
-/

namespace FileLore

namespace FileTask

variable {ι α : Type} [DecidableEq ι]

/-- Tasks that take turns on one disk in any order until all of them have come to their end, with an
account of who carried out what. -/
inductive Turns : (ι → FileTask α) → Disk → List (ι × Operation) → (ι → α) → Disk → Prop where
  /-- All tasks have come to their end. -/
  | done {tasks : ι → FileTask α} {values : ι → α} {disk : Disk}
    (h : ∀ i, tasks i = done (values i)) : Turns tasks disk [] values disk
  /-- One of the tasks carries out its next operation. -/
  | turn {tasks : ι → FileTask α} {disk last : Disk} {log : List (ι × Operation)} {values : ι → α}
    {operation : Operation} {next : Except DiskError operation.Answer → FileTask α} (i : ι)
    (h : tasks i = perform operation next)
    (others : Turns (Function.update tasks i (next (disk.perform operation).1))
      (disk.perform operation).2 log values last) :
    Turns tasks disk ((i, operation) :: log) values last

/-- The value of a task that has come to its end. -/
def value? : FileTask α → Option α
  | done value => some value
  | perform _ _ => none

theorem value?_eq_some {task : FileTask α} {value : α} :
    task.value? = some value ↔ task = .done value := by
  cases task with
  | done found => simp [value?]
  | perform operation next => simp [value?]

/-- Lets tasks take turns in a given order: who carried out what, what is left to do, and the
disk. A task that has come to its end lets its turn pass. -/
def takeTurns : List ι → (ι → FileTask α) → Disk → List (ι × Operation) × (ι → FileTask α) × Disk
  | [], tasks, disk => ([], tasks, disk)
  | turn :: order, tasks, disk =>
    match tasks turn with
    | .done _ => takeTurns order tasks disk
    | .perform operation next =>
      let rest := takeTurns order (Function.update tasks turn (next (disk.perform operation).1))
        (disk.perform operation).2
      ((turn, operation) :: rest.1, rest.2)

/-- Every order in which all tasks come to their end is one that they can take turns in. -/
theorem turns_takeTurns {values : ι → α} {order : List ι} :
    ∀ {tasks : ι → FileTask α} {disk : Disk},
      (∀ i, ((takeTurns order tasks disk).2.1 i).value? = some (values i)) →
        Turns tasks disk (takeTurns order tasks disk).1 values (takeTurns order tasks disk).2.2 := by
  induction order with
  | nil => intro tasks disk h; exact Turns.done fun i => value?_eq_some.mp (h i)
  | cons turn order ih =>
    intro tasks disk h
    rw [takeTurns] at h ⊢
    cases hturn : tasks turn with
    | done value =>
      simp only [hturn] at h ⊢
      exact ih h
    | perform operation next =>
      simp only [hturn] at h ⊢
      exact Turns.turn turn hturn (ih h)

variable {tasks : Bool → FileTask α} {values : Bool → α} {disk mid last : Disk}
  {log : List (Bool × Operation)} {operation : Operation}
  {next : Except DiskError operation.Answer → FileTask α}
  {answer : Except DiskError operation.Answer} {call : Bool}

/-- Two tasks that have come to their end do nothing more. -/
theorem Turns.of_done (h : Turns tasks disk log values last) {first second : α}
    (hfirst : tasks call = .done first) (hsecond : tasks (!call) = .done second) :
    log = [] ∧ values call = first ∧ values (!call) = second ∧ last = disk := by
  cases h with
  | done h =>
    have hcall := (h call).symm.trans hfirst
    have hother := (h (!call)).symm.trans hsecond
    injection hcall with hcall
    injection hother with hother
    exact ⟨rfl, hcall, hother, rfl⟩
  | turn i hi _ =>
    by_cases h : i = call
    · rw [h, hfirst] at hi
      cases hi
    · rw [Bool.eq_not_of_ne h, hsecond] at hi
      cases hi

/-- Of two tasks one takes the next turn, unless both have come to their end. -/
theorem Turns.next_turn (h : Turns tasks disk log values last)
    (hcall : tasks call = .perform operation next) :
    ∃ (turn : Bool) (operation : Operation)
      (next : Except DiskError operation.Answer → FileTask α) (rest : List (Bool × Operation))
      (others : Bool → FileTask α), log = (turn, operation) :: rest ∧
        tasks turn = .perform operation next ∧ others turn = next (disk.perform operation).1 ∧
        others (!turn) = tasks (!turn) ∧
        Turns others (disk.perform operation).2 rest values last := by
  cases h with
  | done h =>
    rw [h call] at hcall
    cases hcall
  | turn turn hturn others =>
    exact ⟨turn, _, _, _, _, rfl, hturn, Function.update_self ..,
      Function.update_of_ne (Bool.not_ne_self turn) .., others⟩

/-- If one of two tasks has come to its end, the next turn is that of the other. -/
theorem Turns.next_of_done (h : Turns tasks disk log values last) {value : α}
    (hdone : tasks call = .done value) (hother : tasks (!call) = .perform operation next)
    (hperform : disk.perform operation = (answer, mid)) :
    ∃ rest others, log = (!call, operation) :: rest ∧ others call = .done value ∧
      others (!call) = next answer ∧ Turns others mid rest values last := by
  obtain ⟨turn, operation, next, rest, others, hlog, hturn, hnext, hsame, hrest⟩ :=
    h.next_turn hother
  have hne : turn ≠ call := by
    rintro rfl
    rw [hdone] at hturn
    cases hturn
  obtain rfl := Bool.eq_not_of_ne hne
  rw [hother] at hturn
  cases hturn
  rw [hperform] at hnext hrest
  rw [Bool.not_not] at hsame
  exact ⟨rest, others, hlog, hsame.trans hdone, hnext, hrest⟩

end FileTask

namespace Cache

open Disk
open FileTask (Turns)

variable {cache : Cache} {category : Namespace} {path : String} {disk last : Disk}
  {temporary artifact : Option ByteArray} {content : ByteArray}

/-! ## What the steps do where the root is there -/

/-- Whether the root is there, with these contents of the temporary file and of the artifact. -/
def Desk (cache : Cache) (category : Namespace) (path : String) (disk : Disk)
    (temporary artifact : Option ByteArray) : Prop :=
  ∃ here, disk.follow cache.root = .ok here ∧ disk.isDirectory here = true ∧
    disk.at? (here ++ [temporaryName category path]) = temporary.map Entry.file ∧
    disk.at? (here ++ [artifactName category path]) = artifact.map Entry.file

/-- The name of an artifact is part of that of its temporary file. -/
theorem takes_artifactName (ht : Takes cache.root (temporaryName category path)) :
    Takes cache.root (artifactName category path) := by
  refine ht.of_shorter (isPlain_artifactName category path) (isPlain_temporaryName category path)
    (fun c hc => ?_) ?_
  · rw [temporaryName_toList]
    simp [hc]
  · rw [temporaryName, String.utf8ByteSize_append, String.utf8ByteSize_append]
    omega

theorem Desk.create (hdesk : cache.Desk category path disk temporary artifact)
    (ht : Takes cache.root (temporaryName category path)) :
    disk.perform (.createDirectories cache.root) = (.ok (), disk) := by
  obtain ⟨here, hf, -⟩ := hdesk
  exact makeDirectories_of_follow (ht.base_usable (isPlain_temporaryName category path)) hf

/-- Writing the temporary file succeeds. -/
theorem Desk.write (hdesk : cache.Desk category path disk temporary artifact)
    (ht : Takes cache.root (temporaryName category path)) (content : ByteArray) :
    ∃ next, disk.perform (.writeFile (cache.temporaryPath category path) content) = (.ok (), next) ∧
      cache.Desk category path next (some content) artifact := by
  obtain ⟨here, hf, hdir, htemporary, hartifact⟩ := hdesk
  have hfree : disk.at? (here ++ [temporaryName category path]) ≠ some .directory := by
    rw [htemporary]
    cases temporary <;> nofun
  have hkeep := keepsDirectories_put hfree (.file content)
  have hchange : disk.changeFile (cache.temporaryPath category path) (fun _ => content) =
      .ok (disk.put (here ++ [temporaryName category path]) (.file content)) := by
    rw [temporaryPath, changeFile_join (isPlain_temporaryName category path) ht hf, htemporary,
      hdir]
    cases temporary <;> rfl
  refine ⟨_, by rw [Disk.perform, hchange]; rfl, here, follow_mono hkeep hf, ?_, ?_, ?_⟩
  · exact isDirectory_iff.mpr (hkeep.directory here (isDirectory_iff.mp hdir))
  · exact at?_put_self (ne_root_of_at?_ne hfree) disk _
  · rw [at?_put_ne (append_cons_ne (temporaryName_ne category category path path) here []),
      hartifact]

/-- Moving the temporary file succeeds if it is there. -/
theorem Desk.move (hdesk : cache.Desk category path disk (some content) artifact)
    (ht : Takes cache.root (temporaryName category path)) :
    ∃ next, disk.perform (.rename (cache.temporaryPath category path)
        (cache.artifactPath category path)) = (.ok (), next) ∧
      cache.Desk category path next none (some content) := by
  obtain ⟨here, hf, hdir, htemporary, hartifact⟩ := hdesk
  have hne := temporaryName_ne category category path path
  have hfile : disk.at? (here ++ [temporaryName category path]) ≠ some .directory := by
    rw [htemporary]
    nofun
  have hfree : disk.at? (here ++ [artifactName category path]) ≠ some .directory := by
    rw [hartifact]
    cases artifact <;> nofun
  have hkeep := keepsDirectories_move hne hfile hfree (.file content)
  have hmove : disk.moveFile (cache.temporaryPath category path)
      (cache.artifactPath category path) =
        .ok ((disk.erase (here ++ [temporaryName category path])).put
          (here ++ [artifactName category path]) (.file content)) := by
    rw [temporaryPath, artifactPath, moveFile_join (isPlain_temporaryName category path)
      (isPlain_artifactName category path) ht (takes_artifactName ht) hf htemporary, hartifact, hdir]
    cases artifact <;> rfl
  refine ⟨_, by rw [Disk.perform, hmove]; rfl, here, follow_mono hkeep hf, ?_, ?_, ?_⟩
  · exact isDirectory_iff.mpr (hkeep.directory here (isDirectory_iff.mp hdir))
  · rw [at?_put_ne (append_cons_ne (Ne.symm hne) here []),
      at?_erase_self (ne_root_of_at?_ne hfile)]
    rfl
  · exact at?_put_self (ne_root_of_at?_ne hfree) _ _

/-- If the temporary file is missing, it can be neither moved nor removed. -/
theorem Desk.missing (hdesk : cache.Desk category path disk none artifact)
    (ht : Takes cache.root (temporaryName category path)) :
    disk.perform (.rename (cache.temporaryPath category path) (cache.artifactPath category path)) =
        (.error .notFound, disk) ∧
      disk.perform (.removeFile (cache.temporaryPath category path)) =
        (.error .notFound, disk) := by
  obtain ⟨here, hf, -, htemporary, -⟩ := hdesk
  have hfind : disk.find? (cache.temporaryPath category path) = .error .notFound := by
    rw [temporaryPath, find?_join_of_follow (isPlain_temporaryName category path) ht hf, htemporary]
    rfl
  constructor
  · rw [Disk.perform, moveFile, hfind]
    rfl
  · rw [Disk.perform, deleteFile, hfind]
    rfl

/-! ## What comes of two calls -/

/-- What tells how two calls that store get in each other's way. -/
inductive Mark where
  | written
  | moved
  deriving DecidableEq

/-- The mark that an operation sets. -/
def mark? : Operation → Option Mark
  | .writeFile .. => some .written
  | .rename .. => some .moved
  | _ => none

/-- In which order two calls write and move their files. -/
def marks (log : List (Bool × Operation)) : List (Bool × Mark) :=
  log.filterMap fun turn => (mark? turn.2).map (turn.1, ·)

theorem marks_cons_none {operation : Operation} (h : mark? operation = none) (call : Bool)
    (log : List (Bool × Operation)) : marks ((call, operation) :: log) = marks log := by
  simp [marks, h]

theorem marks_cons_some {operation : Operation} {mark : Mark} (h : mark? operation = some mark)
    (call : Bool) (log : List (Bool × Operation)) :
    marks ((call, operation) :: log) = (call, mark) :: marks log := by
  simp [marks, h]

variable {payload : String} {tasks : Bool → FileTask (Except Error String)}
  {values : Bool → Except Error String} {value : Except Error String}
  {log : List (Bool × Operation)} {call : Bool}

/-- If one call has come to its end and the temporary file is there, the other succeeds. -/
theorem turns_move (ht : Takes cache.root (temporaryName category path))
    (hdesk : cache.Desk category path disk (some content) artifact)
    (h : Turns tasks disk log values last) (hdone : tasks call = .done value)
    (hmove : tasks (!call) = cache.moveTask category path) :
    marks log = [(!call, .moved)] ∧ values call = value ∧
      values (!call) = .ok (cache.artifactPath category path) ∧
      cache.Desk category path last none (some content) := by
  obtain ⟨mid, hrename, hdesk'⟩ := hdesk.move ht
  obtain ⟨rest, others, rfl, hcall, hother, hrest⟩ := h.next_of_done hdone hmove hrename
  obtain ⟨rfl, hvalue, hvalue', rfl⟩ := hrest.of_done hcall hother
  exact ⟨rfl, hvalue, hvalue', hdesk'⟩

/-- If one call has come to its end and the temporary file is missing, the other fails. -/
theorem turns_missing (ht : Takes cache.root (temporaryName category path))
    (hdesk : cache.Desk category path disk none artifact)
    (h : Turns tasks disk log values last) (hdone : tasks call = .done value)
    (hmove : tasks (!call) = cache.moveTask category path) :
    marks log = [(!call, .moved)] ∧ values call = value ∧
      values (!call) = .error (.io (cache.artifactPath category path) .notFound) ∧ last = disk := by
  obtain ⟨hrename, hremove⟩ := hdesk.missing ht
  obtain ⟨rest, others, rfl, hcall, hother, hrest⟩ := h.next_of_done hdone hmove hrename
  obtain ⟨rest, others, rfl, hcall, hother, hrest⟩ := hrest.next_of_done hcall hother hremove
  obtain ⟨rfl, hvalue, hvalue', rfl⟩ := hrest.of_done hcall hother
  exact ⟨rfl, hvalue, hvalue', rfl⟩

/-- Whether of two calls one has stored and the other has failed to find what it should move. -/
def Clash (cache : Cache) (category : Namespace) (path : String)
    (values : Bool → Except Error String) (mover : Bool) : Prop :=
  values mover = .ok (cache.artifactPath category path) ∧
    values (!mover) = .error (.io (cache.artifactPath category path) .notFound)

/-- If both calls have written the temporary file, one of them moves it and the other fails. -/
theorem turns_moves (ht : Takes cache.root (temporaryName category path))
    (hdesk : cache.Desk category path disk (some content) artifact)
    (h : Turns tasks disk log values last)
    (hmove : ∀ call, tasks call = cache.moveTask category path) :
    cache.Desk category path last none (some content) ∧
      ∃ mover, marks log = [(mover, .moved), (!mover, .moved)] ∧
        cache.Clash category path values mover := by
  obtain ⟨mover, operation, next, rest, others, rfl, hturn, hnext, hsame, hrest⟩ :=
    h.next_turn (hmove true)
  rw [hmove mover] at hturn
  cases hturn
  obtain ⟨mid, hrename, hdesk'⟩ := hdesk.move ht
  rw [hrename] at hnext hrest
  obtain ⟨hmarks, hvalue, hvalue', rfl⟩ :=
    turns_missing ht hdesk' hrest hnext (hsame.trans (hmove _))
  refine ⟨hdesk', mover, ?_, hvalue, hvalue'⟩
  rw [marks_cons_some rfl, hmarks]

/-- Whether a task is storing, with the temporary file still to be written. -/
def Waiting (cache : Cache) (category : Namespace) (path payload : String)
    (task : FileTask (Except Error String)) : Prop :=
  task = cache.store category path payload ∨ task = cache.writeTask category path payload

theorem Waiting.turn {task : FileTask (Except Error String)}
    (hwait : cache.Waiting category path payload task)
    (ht : Takes cache.root (temporaryName category path))
    (hdesk : cache.Desk category path disk temporary artifact) :
    ∃ (operation : Operation) (next : _ → _) (answer : _) (mid : Disk),
      task = .perform operation next ∧ disk.perform operation = (answer, mid) ∧
        ((mark? operation = none ∧ mid = disk ∧
            cache.Waiting category path payload (next answer)) ∨
          (mark? operation = some .written ∧
            cache.Desk category path mid (some payload.toUTF8) artifact ∧
            next answer = cache.moveTask category path)) := by
  rcases hwait with rfl | rfl
  · exact ⟨_, _, _, _, store_eq .., hdesk.create ht, Or.inl ⟨rfl, rfl, Or.inr rfl⟩⟩
  · obtain ⟨mid, hwrite, hdesk'⟩ := hdesk.write ht payload.toUTF8
    exact ⟨_, _, _, _, rfl, hwrite, Or.inr ⟨rfl, hdesk', rfl⟩⟩

/-- If one call has come to its end before the other writes the temporary file, the other
succeeds. -/
theorem turns_write (ht : Takes cache.root (temporaryName category path))
    (hdesk : cache.Desk category path disk temporary artifact)
    (h : Turns tasks disk log values last) (hdone : tasks call = .done value)
    (hwait : cache.Waiting category path payload (tasks (!call))) :
    marks log = [(!call, .written), (!call, .moved)] ∧ values call = value ∧
      values (!call) = .ok (cache.artifactPath category path) ∧
      cache.Desk category path last none (some payload.toUTF8) := by
  -- Finding the root may come before writing, so the induction is on what is left to do.
  induction log generalizing tasks disk with
  | nil =>
    obtain ⟨operation, next, answer, mid, htask, hperform, -⟩ := hwait.turn ht hdesk
    obtain ⟨_, _, hlog, -⟩ := h.next_of_done hdone htask hperform
    cases hlog
  | cons entry log ih =>
    obtain ⟨operation, next, answer, mid, htask, hperform, hturn⟩ := hwait.turn ht hdesk
    obtain ⟨rest, others, hlog, hcall, hother, hrest⟩ := h.next_of_done hdone htask hperform
    cases hlog
    rcases hturn with ⟨hmark, rfl, hwait'⟩ | ⟨hmark, hdesk', hmove⟩
    · rw [marks_cons_none hmark]
      rw [← hother] at hwait'
      exact ih hdesk hrest hcall hwait'
    · obtain ⟨hmarks, hvalue, hvalue', hdesk''⟩ :=
        turns_move ht hdesk' hrest hcall (hother.trans hmove)
      exact ⟨by rw [marks_cons_some hmark, hmarks], hvalue, hvalue', hdesk''⟩

/-- If one call has written the temporary file before the other does so, what comes of them depends
on whether it is moved in between. -/
theorem turns_write_moving (ht : Takes cache.root (temporaryName category path))
    (hdesk : cache.Desk category path disk (some content) artifact)
    (h : Turns tasks disk log values last) (hmove : tasks call = cache.moveTask category path)
    (hwait : cache.Waiting category path payload (tasks (!call))) :
    cache.Desk category path last none (some payload.toUTF8) ∧
      ((marks log = [(call, .moved), (!call, .written), (!call, .moved)] ∧
          ∀ each, values each = .ok (cache.artifactPath category path)) ∨
        ∃ mover, marks log = [(!call, .written), (mover, .moved), (!mover, .moved)] ∧
          cache.Clash category path values mover) := by
  induction log generalizing tasks disk with
  | nil =>
    obtain ⟨_, _, _, _, _, hlog, -⟩ := h.next_turn hmove
    cases hlog
  | cons entry log ih =>
    obtain ⟨turn, operation, next, rest, others, hlog, hturn, hnext, hsame, hrest⟩ :=
      h.next_turn hmove
    cases hlog
    by_cases hcall : turn = call
    · -- The file is moved before the other call writes it.
      subst hcall
      rw [hmove] at hturn
      cases hturn
      obtain ⟨mid, hrename, hdesk'⟩ := hdesk.move ht
      rw [hrename] at hnext hrest
      rw [← hsame] at hwait
      obtain ⟨hmarks, hvalue, hvalue', hdesk''⟩ := turns_write ht hdesk' hrest hnext hwait
      refine ⟨hdesk'', Or.inl ⟨by rw [marks_cons_some rfl, hmarks], fun each => ?_⟩⟩
      by_cases heach : each = turn
      · rw [heach, hvalue]
      · rw [Bool.eq_not_of_ne heach, hvalue']
    · obtain rfl := Bool.eq_not_of_ne hcall
      rw [Bool.not_not] at hsame
      obtain ⟨operation', next', answer, mid, htask, hperform, hwrite⟩ := hwait.turn ht hdesk
      rw [htask] at hturn
      cases hturn
      rw [hperform] at hnext hrest
      rcases hwrite with ⟨hmark, rfl, hwait'⟩ | ⟨hmark, hdesk', hmove'⟩
      · -- The other call finds the root, which changes nothing.
        rw [marks_cons_none hmark]
        rw [← hnext] at hwait'
        exact ih hdesk hrest (hsame.trans hmove) hwait'
      · -- The other call overwrites the file, and now both are about to move it.
        have hboth : ∀ each, others each = cache.moveTask category path := fun each => by
          by_cases heach : each = call
          · rw [heach, hsame, hmove]
          · rw [Bool.eq_not_of_ne heach, hnext, hmove']
        obtain ⟨hdesk'', mover, hmarks, hclash⟩ := turns_moves ht hdesk' hrest hboth
        exact ⟨hdesk'', Or.inr ⟨mover, by rw [marks_cons_some hmark, hmarks], hclash⟩⟩

/-- What comes of two calls that are still to write the temporary file. -/
theorem turns_waiting {payload : Bool → String}
    (ht : Takes cache.root (temporaryName category path))
    (hdesk : cache.Desk category path disk temporary artifact)
    (h : Turns tasks disk log values last)
    (hwait : ∀ call, cache.Waiting category path (payload call) (tasks call)) :
    ∃ first, cache.Desk category path last none (some (payload (!first)).toUTF8) ∧
      ((marks log = [(first, .written), (first, .moved), (!first, .written), (!first, .moved)] ∧
          ∀ each, values each = .ok (cache.artifactPath category path)) ∨
        ∃ mover, marks log =
            [(first, .written), (!first, .written), (mover, .moved), (!mover, .moved)] ∧
          cache.Clash category path values mover) := by
  induction log generalizing tasks disk with
  | nil =>
    obtain ⟨_, _, _, _, htask, -⟩ := (hwait true).turn ht hdesk
    obtain ⟨_, _, _, _, _, hlog, -⟩ := h.next_turn htask
    cases hlog
  | cons entry log ih =>
    obtain ⟨_, _, _, _, htask, -⟩ := (hwait true).turn ht hdesk
    obtain ⟨turn, operation, next, rest, others, hlog, hturn, hnext, hsame, hrest⟩ :=
      h.next_turn htask
    cases hlog
    obtain ⟨operation', next', answer, mid, htask, hperform, hwrite⟩ := (hwait turn).turn ht hdesk
    rw [htask] at hturn
    cases hturn
    rw [hperform] at hnext hrest
    rcases hwrite with ⟨hmark, rfl, hwait'⟩ | ⟨hmark, hdesk', hmove⟩
    · -- The root is found, which changes nothing.
      rw [marks_cons_none hmark]
      refine ih hdesk hrest fun each => ?_
      by_cases heach : each = turn
      · rw [heach, hnext]
        exact hwait'
      · rw [Bool.eq_not_of_ne heach, hsame]
        exact hwait (!turn)
    · -- The first of the two writes: from here on it is about to move the file.
      have hother := hwait (!turn)
      rw [← hsame] at hother
      obtain ⟨hdesk'', hend⟩ :=
        turns_write_moving ht hdesk' hrest (hnext.trans hmove) hother
      rw [marks_cons_some hmark]
      refine ⟨turn, hdesk'', hend.imp (fun ⟨hmarks, hok⟩ => ⟨by rw [hmarks], hok⟩) ?_⟩
      exact fun ⟨mover, hmarks, hclash⟩ => ⟨mover, by rw [hmarks], hclash⟩

/-! ## Temporary files that no system takes -/

/-- Whether a task is storing and has not written anything, or has failed. -/
def Refused (cache : Cache) (category : Namespace) (path payload : String)
    (task : FileTask (Except Error String)) : Prop :=
  cache.Waiting category path payload task ∨ ∃ reason, task = .done (.error reason)

/-- Where the root is there but the temporary file cannot be written, no step does anything. -/
theorem Waiting.turn_refused {task : FileTask (Except Error String)} {operation : Operation}
    {next : Except DiskError operation.Answer → FileTask (Except Error String)} {here : Location}
    (hwait : cache.Waiting category path payload task)
    (ht : ¬Takes cache.root (temporaryName category path)) (hf : disk.follow cache.root = .ok here)
    (htask : task = .perform operation next) :
    (disk.perform operation).2 = disk ∧
      cache.Refused category path payload (next (disk.perform operation).1) := by
  rcases hwait with hstore | hwrite
  · rw [hstore, store_eq] at htask
    cases htask
    refine ⟨(makeDirectories_made disk cache.root).eq_of_follow hf, ?_⟩
    cases (disk.perform (.createDirectories cache.root)).1 with
    | error cause => exact Or.inr ⟨_, rfl⟩
    | ok _ => exact Or.inl (Or.inr rfl)
  · rw [hwrite, writeTask] at htask
    cases htask
    have hperform : ∃ reason, disk.perform (.writeFile (cache.temporaryPath category path)
        payload.toUTF8) = (.error reason, disk) := by
      rw [Disk.perform]
      cases hchange : disk.changeFile (cache.temporaryPath category path)
          (fun _ => payload.toUTF8) with
      | error reason => exact ⟨reason, rfl⟩
      | ok next => exact absurd (changeFile_join_ok (isPlain_temporaryName ..) hchange).1 ht
    obtain ⟨reason, hperform⟩ := hperform
    rw [hperform]
    exact ⟨rfl, Or.inr ⟨_, rfl⟩⟩

/-- If no system takes the temporary file, all calls fail and nothing changes. -/
theorem turns_refused {payload : Bool → String} {here : Location}
    (ht : ¬Takes cache.root (temporaryName category path)) (hf : disk.follow cache.root = .ok here)
    (h : Turns tasks disk log values last)
    (hall : ∀ call, cache.Refused category path (payload call) (tasks call)) :
    (∀ call, ∃ reason, values call = .error reason) ∧ last = disk := by
  -- The calls do not get in each other's way here, so the induction is on all turns at once.
  induction h with
  | @done tasks values disk hdone =>
    refine ⟨fun call => ?_, rfl⟩
    have hcall := hall call
    rw [hdone call] at hcall
    rcases hcall with (hstore | hwrite) | ⟨reason, hreason⟩
    · rw [store_eq] at hstore
      cases hstore
    · cases hwrite
    · injection hreason with hreason
      exact ⟨reason, hreason⟩
  | @turn tasks disk last log values operation next turn hturn _ ih =>
    have hcall := hall turn
    rw [hturn] at hcall
    rcases hcall with hwait | ⟨_, hdone⟩
    · obtain ⟨hsame, hrefused⟩ := hwait.turn_refused ht hf rfl
      rw [hsame] at ih
      refine ih hf fun call => ?_
      by_cases hne : call = turn
      · subst hne
        rw [Function.update_self]
        exact hrefused
      · rw [Function.update_of_ne hne]
        exact hall call
    · cases hdone

/-! ## The exact condition -/

/-- Whether one call moves its file before the other writes its own. -/
def InTurn (log : List (Bool × Operation)) : Prop :=
  ∃ first, marks log =
    [(first, .written), (first, .moved), (!first, .written), (!first, .moved)]

/-- The call that was the last to move its file or to try so. -/
def lastMover? (log : List (Bool × Operation)) : Option Bool :=
  ((marks log).filter (·.2 = .moved)).getLast?.map (·.1)

theorem Desk.read {text : String}
    (hdesk : cache.Desk category path disk temporary (some text.toUTF8))
    (ht : Takes cache.root (artifactName category path)) :
    (cache.read category path).run disk = (.ok (some text), disk) := by
  obtain ⟨here, hf, -, -, hartifact⟩ := hdesk
  refine read_of_standing (Or.inl ⟨here, hf⟩) ht ?_
  rw [artifactPath, standing_join (isPlain_artifactName category path) ht hf, hartifact]
  rfl

/-- Calls store in the same way if their paths have the same key. -/
theorem store_congr {other : String} (h : key path = key other) :
    cache.store category path payload = cache.store category other payload := by
  have hname : artifactName category path = artifactName category other :=
    artifactName_inj.mpr ⟨rfl, h⟩
  have htarget : cache.artifactPath category path = cache.artifactPath category other := by
    rw [artifactPath, hname, artifactPath]
  have htemporary : cache.temporaryPath category path = cache.temporaryPath category other := by
    rw [temporaryPath, temporaryName, hname, temporaryPath, temporaryName]
  unfold store
  rw [htarget, htemporary]

theorem exists_file_of_ne {location : Location} (h : disk.at? location ≠ some .directory) :
    ∃ content : Option ByteArray, disk.at? location = content.map Entry.file := by
  cases hat : disk.at? location with
  | none => exact ⟨none, rfl⟩
  | some entry =>
    cases entry with
    | directory => exact absurd hat h
    | file content => exact ⟨some content, rfl⟩

/-- Two calls in one root, where it is there with no directory in the way, under one key. -/
structure AtOnce (cache : Cache) (category : Namespace) (path payload : Bool → String) (disk : Disk)
    (log : List (Bool × Operation)) (values : Bool → Except Error String) (last : Disk) : Prop where
  sameKey : ∀ call, key (path call) = key (path true)
  root : ∃ here, disk.follow cache.root = .ok here ∧ disk.isDirectory here = true ∧
    disk.at? (here ++ [temporaryName category (path true)]) ≠ some .directory ∧
    disk.at? (here ++ [artifactName category (path true)]) ≠ some .directory
  turns : Turns (fun call => cache.store category (path call) (payload call)) disk log values last

variable {paths payloads : Bool → String}

/-- Calls at once are calls that are still to write one and the same temporary file. -/
theorem AtOnce.waiting (h : cache.AtOnce category paths payloads disk log values last)
    (call : Bool) : cache.Waiting category (paths true) (payloads call)
      (cache.store category (paths call) (payloads call)) :=
  Or.inl (store_congr (h.sameKey call))

theorem AtOnce.artifactPath_eq (h : cache.AtOnce category paths payloads disk log values last)
    (call : Bool) :
    cache.artifactPath category (paths call) = cache.artifactPath category (paths true) :=
  (artifactPath_inj cache).mpr ⟨rfl, h.sameKey call⟩

theorem AtOnce.desk (h : cache.AtOnce category paths payloads disk log values last) :
    ∃ temporary artifact, cache.Desk category (paths true) disk temporary artifact := by
  obtain ⟨here, hf, hdir, htemporary, hartifact⟩ := h.root
  obtain ⟨temporary, htemporary⟩ := exists_file_of_ne htemporary
  obtain ⟨artifact, hartifact⟩ := exists_file_of_ne hartifact
  exact ⟨temporary, artifact, here, hf, hdir, htemporary, hartifact⟩

/-- Whether both calls have stored, and what is read is the text of the last that moved its file. -/
def LastWins (cache : Cache) (category : Namespace) (paths payloads : Bool → String)
    (log : List (Bool × Operation)) (values : Bool → Except Error String) (last : Disk) : Prop :=
  (∀ call, values call = .ok (cache.artifactPath category (paths call))) ∧
    ∃ winner, lastMover? log = some winner ∧ ∀ call,
      (cache.read category (paths call)).run last = (.ok (some (payloads winner)), last)

/-- What comes of two calls at once if the system takes the temporary file. -/
theorem AtOnce.of_takes (h : cache.AtOnce category paths payloads disk log values last)
    (ht : Takes cache.root (temporaryName category (paths true))) :
    (InTurn log ∧ cache.LastWins category paths payloads log values last) ∨
      ∃ first mover,
        marks log = [(first, .written), (!first, .written), (mover, .moved), (!mover, .moved)] ∧
        values mover = .ok (cache.artifactPath category (paths mover)) ∧
        values (!mover) = .error (.io (cache.artifactPath category (paths !mover)) .notFound) ∧
        ∀ call, (cache.read category (paths call)).run last =
          (.ok (some (payloads (!first))), last) := by
  obtain ⟨temporary, artifact, hdesk⟩ := h.desk
  obtain ⟨first, hdesk', hend⟩ := turns_waiting ht hdesk h.turns h.waiting
  have hread (call : Bool) : (cache.read category (paths call)).run last =
      (.ok (some (payloads (!first))), last) := by
    have hname : artifactName category (paths call) = artifactName category (paths true) :=
      artifactName_inj.mpr ⟨rfl, h.sameKey call⟩
    have hdone := hdesk'.read (takes_artifactName ht)
    rwa [Cache.read, ← h.artifactPath_eq call] at hdone
  -- Either the calls wrote and moved one after the other, or both wrote before one of them moved.
  rcases hend with ⟨hmarks, hok⟩ | ⟨mover, hmarks, hstored, hfailed⟩
  · refine Or.inl ⟨⟨first, hmarks⟩, fun call => ?_, !first, ?_, hread⟩
    · rw [hok, h.artifactPath_eq call]
    · rw [lastMover?, hmarks]
      rfl
  · refine Or.inr ⟨first, mover, hmarks, ?_, ?_, hread⟩
    · rw [hstored, h.artifactPath_eq mover]
    · rw [hfailed, h.artifactPath_eq (!mover)]

/-- **The last one wins just if the calls take their turns.** Of two processes that store under the
same key both succeed, and the text of the last to move its file is read, just if the system takes
the temporary file and one call moves it before the other writes it. If both write it before it is
moved, only the call that moves it first succeeds, and the text that was written last is read; if
the system does not take it, both fail and nothing changes. -/
theorem lastWins_iff_inTurn (h : cache.AtOnce category paths payloads disk log values last) :
    (cache.LastWins category paths payloads log values last ↔
      Takes cache.root (temporaryName category (paths true)) ∧ InTurn log) ∧
    (Takes cache.root (temporaryName category (paths true)) → ¬InTurn log →
      ∃ first mover,
        marks log = [(first, .written), (!first, .written), (mover, .moved), (!mover, .moved)] ∧
        values mover = .ok (cache.artifactPath category (paths mover)) ∧
        values (!mover) = .error (.io (cache.artifactPath category (paths !mover)) .notFound) ∧
        ∀ call, (cache.read category (paths call)).run last =
          (.ok (some (payloads (!first))), last)) ∧
    (¬Takes cache.root (temporaryName category (paths true)) →
      (∀ call, ∃ reason, values call = .error reason) ∧ last = disk) := by
  have hrefused (ht : ¬Takes cache.root (temporaryName category (paths true))) :
      (∀ call, ∃ reason, values call = .error reason) ∧ last = disk := by
    obtain ⟨here, hf, -⟩ := h.root
    exact turns_refused ht hf h.turns fun call => Or.inl (h.waiting call)
  refine ⟨⟨fun hwins => ?_, fun ⟨ht, hturn⟩ => ?_⟩, fun ht hturn => ?_, hrefused⟩
  · -- If the last one wins, both have stored, which leaves only one of the three cases.
    by_cases ht : Takes cache.root (temporaryName category (paths true))
    · rcases h.of_takes ht with ⟨hturn, -⟩ | ⟨first, mover, -, -, hfailed, -⟩
      · exact ⟨ht, hturn⟩
      · rw [hwins.1] at hfailed
        cases hfailed
    · obtain ⟨reason, hreason⟩ := (hrefused ht).1 true
      rw [hwins.1] at hreason
      cases hreason
  · rcases h.of_takes ht with ⟨-, hwins⟩ | ⟨first, mover, hmarks, -⟩
    · exact hwins
    · -- The second mark is that of a move if the calls take their turns, but here of a write.
      obtain ⟨other, hother⟩ := hturn
      rw [hmarks] at hother
      injection hother with _ hother
      injection hother with hother _
      injection hother with _ hother
      cases hother
  · rcases h.of_takes ht with ⟨hyes, -⟩ | hclash
    · exact absurd hyes hturn
    · exact hclash

/-- Two processes that store under one key can write one after the other and then move one after
the other; then the second finds nothing to move. -/
theorem lastWins_kb :
    ∃ log values last,
      AtOnce ⟨"kb"⟩ .impact (fun call => if call then "a/b" else "a_b")
          (fun call => if call then "1" else "2") ⟨[(["kb"], .directory)], []⟩ log values last ∧
        Takes "kb" (temporaryName .impact "a/b") ∧ ¬InTurn log ∧
        ¬LastWins ⟨"kb"⟩ .impact (fun call => if call then "a/b" else "a_b")
          (fun call => if call then "1" else "2") log values last := by
  let calls (call : Bool) : FileTask (Except Error String) :=
    Cache.store ⟨"kb"⟩ .impact (if call then "a/b" else "a_b") (if call then "1" else "2")
  let order := [true, false, true, false, true, false, false]
  have hvalues : ∀ call, ((FileTask.takeTurns order calls
      ⟨[(["kb"], .directory)], []⟩).2.1 call).value? = some (if call then .ok "kb/a_b_impact.json"
        else .error (.io "kb/a_b_impact.json" .notFound)) := by decide +kernel
  have hmarks : marks (FileTask.takeTurns order calls ⟨[(["kb"], .directory)], []⟩).1 =
      [(true, .written), (false, .written), (true, .moved), (false, .moved)] := by decide +kernel
  have hturns := FileTask.turns_takeTurns hvalues
  generalize FileTask.takeTurns order calls ⟨[(["kb"], .directory)], []⟩ = run at hturns hmarks
  have honce : AtOnce ⟨"kb"⟩ .impact (fun call => if call then "a/b" else "a_b")
      (fun call => if call then "1" else "2") ⟨[(["kb"], .directory)], []⟩ run.1 _ run.2.2 :=
    ⟨by decide, ⟨["kb"], rfl, rfl, nofun, nofun⟩, hturns⟩
  have hnot : ¬InTurn run.1 := by
    rintro ⟨first, hfirst⟩
    rw [hmarks] at hfirst
    cases hfirst
  refine ⟨_, _, _, honce, ⟨by decide, by decide⟩, hnot, fun hwins => hnot ?_⟩
  exact ((lastWins_iff_inTurn honce).1.mp hwins).2

end Cache

end FileLore
