import FileLore.Proofs.Disk.Change
import Mathlib.Data.List.Induction
import Mathlib.Logic.Relation

/-!
# Making the directories of a path

Making a directory along with those above it is a number of single steps, each of
which makes one ancestor of the path. Which of them are taken depends on the disk
and on what fails, so this file speaks of every number of steps in every order
(`Made`); what `makeDirectories` does is one such series (`makeDirectories_made`).

All that such a series changes is that directories come to be on the way along the
path (`Made.changed`). The main statements say that it brings nothing to light in the
directory that the path leads to: where the path can be followed there is nothing
left to make (`Made.eq_of_follow`), and where it cannot, a directory that comes to
be was not there before, so in a tree nothing stands in it
(`Made.standing_of_straight`, `Made.cases_of_missing`). A path can pass through a
directory that is still to be made and lead back by a name `..` to one that is there
already; such paths are not straight.
-/

namespace FileLore.Disk

variable {disk next : Disk} {here there : Location} {path root name : String}

/-! ## Trees -/

/-- Whether everything that stands somewhere stands in a directory. -/
def IsTree (disk : Disk) : Prop :=
  ∀ location name, disk.at? (location ++ [name]) ≠ none → disk.at? location = some .directory

/-- In a tree there are only directories above what stands somewhere. -/
theorem IsTree.directory_above (h : IsTree disk) {more : List String} :
    more ≠ [] → disk.at? (here ++ more) ≠ none → disk.at? here = some .directory := by
  induction more using List.reverseRecOn with
  | nil => intro hne _; exact absurd rfl hne
  | append_singleton front last ih =>
    intro _ hat
    rw [← List.append_assoc] at hat
    have hfront := h _ _ hat
    by_cases hnil : front = []
    · subst hnil
      simpa using hfront
    · exact ih hnil (by rw [hfront]; exact Option.some_ne_none _)

theorem isTree_empty (working : Location) : IsTree ⟨[], working⟩ := by
  intro location name h
  simp [at?] at h

/-- What is put into a directory, but not in place of a directory, leaves a tree a tree. -/
theorem IsTree.put (h : disk.IsTree) (here : Location) (name : String)
    (hparent : disk.at? here = some .directory)
    (hat : disk.at? (here ++ [name]) ≠ some .directory) (entry : Entry) :
    (disk.put (here ++ [name]) entry).IsTree := by
  have hkeep := keepsDirectories_put hat entry
  intro location other hsome
  by_cases heq : location ++ [other] = here ++ [name]
  · obtain ⟨rfl, -⟩ := List.append_inj' heq rfl
    exact hkeep.directory location hparent
  · rw [at?_put_ne heq] at hsome
    exact hkeep.directory location (h location other hsome)

/-! ## One directory -/

/-- Where a path that leads to a name leads. -/
theorem destination?_name (h : disk.destination? path = .ok (.name here name)) :
    ∃ front, pathNames path = front ++ [name] ∧
      disk.enterAll (disk.startOf path) front = .ok here ∧
      name ≠ "." ∧ name ≠ ".." ∧ name.utf8ByteSize ≤ greatestName := by
  unfold destination? at h
  split at h
  next => cases h
  next =>
    dsimp only at h
    split at h
    next => cases h
    next last hlast =>
      obtain ⟨front, hfront⟩ := List.getLast?_eq_some_iff.mp hlast
      rw [hfront, List.dropLast_concat] at h
      split at h
      next => cases h
      next parent hparent =>
        split at h
        next => cases h
        next hhere =>
          split at h
          next => cases h
          next hup =>
            split at h
            next => cases h
            next hshort =>
              injection h with h
              injection h with h1 h2
              subst h1 h2
              exact ⟨front, hfront, hparent, hhere, hup, Nat.not_lt.mp hshort⟩

/-- What making a directory changes: it puts one where nothing stands. -/
theorem makeDirectory_ok (h : disk.makeDirectory path = .ok next) :
    ∃ parent name front, pathNames path = front ++ [name] ∧
      disk.enterAll (disk.startOf path) front = .ok parent ∧
      name ≠ "." ∧ name ≠ ".." ∧ name.utf8ByteSize ≤ greatestName ∧
      disk.at? (parent ++ [name]) = none ∧ next = disk.put (parent ++ [name]) .directory := by
  unfold makeDirectory at h
  split at h
  next => cases h
  next => cases h
  next parent name hd =>
    obtain ⟨front, hfront, henter, hhere, hup, hshort⟩ := destination?_name hd
    split at h
    next => cases h
    next hnone =>
      split at h
      next =>
        injection h with h
        exact ⟨parent, name, front, hfront, henter, hhere, hup, hshort, by simpa using hnone,
          h.symm⟩
      next => cases h

theorem keepsDirectories_of_makeDirectory (h : disk.makeDirectory path = .ok next) :
    KeepsDirectories disk next := by
  obtain ⟨parent, name, -, -, -, -, -, -, hnone, rfl⟩ := makeDirectory_ok h
  exact keepsDirectories_put (by rw [hnone]; nofun) _

/-! ## Several directories -/

/-- Whether `next` comes about on `disk` by making directories at some of the paths, in any
order. -/
def Made (paths : List String) : Disk → Disk → Prop :=
  Relation.ReflTransGen fun disk next => ∃ path ∈ paths, disk.makeDirectory path = .ok next

/-- What making an ancestor of a path changes: it puts a directory where nothing stands, at the
place that some of the path's names lead to. -/
theorem makeDirectory_ancestor_ok (hmem : path ∈ Path.ancestors root)
    (h : disk.makeDirectory path = .ok next) :
    ∃ front parent name, front ++ [name] <+: pathNames root ∧
      disk.enterAll (disk.startOf root) front = .ok parent ∧ name ≠ "." ∧ name ≠ ".." ∧
      disk.at? (parent ++ [name]) = none ∧ next = disk.put (parent ++ [name]) .directory ∧
      next.enterAll (next.startOf root) (front ++ [name]) = .ok (parent ++ [name]) := by
  obtain ⟨parent, name, front, hnames, henter, hhere, hup, hshort, hnone, hnext⟩ :=
    makeDirectory_ok h
  obtain ⟨hfront, hstart⟩ := mem_ancestors hmem
  rw [hnames] at hfront
  rw [hstart disk] at henter
  refine ⟨front, parent, name, hfront, henter, hhere, hup, hnone, hnext, ?_⟩
  have hkeep := keepsDirectories_of_makeDirectory h
  have hstart' : next.startOf root = disk.startOf root := by simp only [startOf, hkeep.working]
  have hput : next.at? (parent ++ [name]) = some .directory := by
    rw [hnext]
    exact at?_put_self (by simp) disk .directory
  rw [hstart', enterAll_append, enterAll_mono hkeep henter]
  simp only [enterAll, (enter_plain_ok hhere hup).mpr ⟨hshort, hput, rfl⟩]

theorem Made.of_subset {paths others : List String} (hsub : ∀ path ∈ paths, path ∈ others)
    (h : Made paths disk next) : Made others disk next :=
  Relation.ReflTransGen.mono (fun _ _ ⟨path, hmem, hok⟩ => ⟨path, hsub path hmem, hok⟩) _ _ h

theorem Made.keepsDirectories {paths : List String} (h : Made paths disk next) :
    KeepsDirectories disk next := by
  induction h with
  | refl => exact KeepsDirectories.refl disk
  | tail _ hstep ih =>
    obtain ⟨path, -, hok⟩ := hstep
    exact ih.trans (keepsDirectories_of_makeDirectory hok)

/-- **All that making directories of a path changes** is that directories come to be where nothing
stood, each at a place that some of the path's names lead to. -/
theorem Made.changed (h : Made (Path.ancestors root) disk next) {location : Location}
    (hne : next.at? location ≠ disk.at? location) :
    disk.at? location = none ∧ next.at? location = some .directory ∧
      ∃ front, front <+: pathNames root ∧
        next.enterAll (next.startOf root) front = .ok location := by
  induction h with
  | refl => exact absurd rfl hne
  | @tail mid last hmade hstep ih =>
    obtain ⟨path, hmem, hok⟩ := hstep
    obtain ⟨front, parent, name, hfront, -, -, -, hnone, rfl, hreach⟩ :=
      makeDirectory_ancestor_ok hmem hok
    by_cases hsame : location = parent ++ [name]
    · -- The place of the last directory, which was free before this step.
      subst hsame
      have hput := at?_put_self (by simp : parent ++ [name] ≠ []) mid .directory
      refine ⟨?_, hput, _, hfront, hreach⟩
      by_contra hsome
      obtain ⟨-, hdirectory, -⟩ := ih (by rw [hnone]; exact Ne.symm hsome)
      rw [hnone] at hdirectory
      cases hdirectory
    · rw [at?_put_ne hsame] at hne ⊢
      obtain ⟨hfree, hdirectory, begun, hbegun, hreached⟩ := ih hne
      have hkeep := keepsDirectories_of_makeDirectory hok
      refine ⟨hfree, hdirectory, begun, hbegun, ?_⟩
      have hstart : (mid.put (parent ++ [name]) .directory).startOf root = mid.startOf root := rfl
      rw [hstart]
      exact enterAll_mono hkeep hreached

/-- Looking for the innermost directory that can be made makes one of them at most, and what it
reports as missing are some of them. -/
theorem makeOutermost_made : ∀ paths : List String,
    (∀ next, (disk.makeOutermost paths).1 = .ok next → Made paths disk next) ∧
      ∀ path ∈ (disk.makeOutermost paths).2, path ∈ paths := by
  intro paths
  induction paths with
  | nil =>
    refine ⟨fun next h => ?_, fun path h => by simp [makeOutermost] at h⟩
    simp only [makeOutermost, Except.ok.injEq] at h
    subst h
    exact Relation.ReflTransGen.refl
  | cons path parents ih =>
    have hrest : ∀ other ∈ parents, other ∈ path :: parents := fun _ h =>
      List.mem_cons_of_mem _ h
    unfold makeOutermost
    split
    next made hmade =>
      refine ⟨fun next h => ?_, fun other h => by simp at h⟩
      simp only [Except.ok.injEq] at h
      subst h
      exact Relation.ReflTransGen.single ⟨path, List.mem_cons_self .., hmade⟩
    next hmissing =>
      refine ⟨fun next h => (ih.1 next h).of_subset hrest, fun other h => ?_⟩
      rcases List.mem_cons.mp h with rfl | h
      · exact List.mem_cons_self ..
      · exact hrest other (ih.2 other h)
    next reason _ _ =>
      split
      · -- What stands there already need not be made.
        refine ⟨fun next h => ?_, fun other h => by simp at h⟩
        simp only [Except.ok.injEq] at h
        subst h
        exact Relation.ReflTransGen.refl
      · exact ⟨fun next h => by simp at h, fun other h => by simp at h⟩

theorem makeEach_made {paths : List String} :
    ∀ (todo : List String) (disk : Disk), (∀ path ∈ todo, path ∈ paths) →
      Made paths disk (disk.makeEach todo).2 := by
  intro todo
  induction todo with
  | nil => intro disk _; exact Relation.ReflTransGen.refl
  | cons path rest ih =>
    intro disk hsub
    have hrest : ∀ other ∈ rest, other ∈ paths := fun other h =>
      hsub other (List.mem_cons_of_mem _ h)
    unfold makeEach
    split
    next made hmade =>
      exact Relation.ReflTransGen.head ⟨path, hsub path (List.mem_cons_self ..), hmade⟩
        (ih made hrest)
    next =>
      split
      · exact ih disk hrest
      · exact Relation.ReflTransGen.refl

/-- Making a directory with those above it makes some of its ancestors. -/
theorem makeDirectories_made (disk : Disk) (path : String) :
    Made (Path.ancestors path) disk (disk.makeDirectories path).2 := by
  obtain ⟨hmade, hmissing⟩ := @makeOutermost_made disk (Path.ancestors path)
  unfold makeDirectories
  split
  next => exact Relation.ReflTransGen.refl
  next made missing hres =>
    rw [hres] at hmade hmissing
    refine (hmade made rfl).trans (makeEach_made _ made fun other h => ?_)
    exact hmissing other (List.mem_reverse.mp h)

/-! ## Directories of a path that can be followed -/

theorem at?_ne_none_of_enterAll {front : List String} (hhere : name ≠ ".") (hup : name ≠ "..")
    {start : Location} (hfront : disk.enterAll start front = .ok here)
    (h : disk.enterAll start (front ++ [name]) = .ok there) :
    disk.at? (here ++ [name]) ≠ none := by
  rw [enterAll_append, hfront] at h
  cases he : disk.enter here name with
  | error reason => simp [enterAll, he] at h
  | ok mid =>
    rw [((enter_plain_ok hhere hup).mp he).2.1]
    exact Option.some_ne_none _

/-- No ancestor of a path that can be followed is left to be made. -/
theorem makeDirectory_ancestor_ne (hf : disk.follow root = .ok here)
    (hmem : path ∈ Path.ancestors root) : disk.makeDirectory path ≠ .ok next := by
  intro hmade
  obtain ⟨front, parent, name, hfront, henter, hhere, hup, hnone, -, -⟩ :=
    makeDirectory_ancestor_ok hmem hmade
  obtain ⟨mid, hmid⟩ := enterAll_front hfront hf
  exact at?_ne_none_of_enterAll hhere hup henter hmid hnone

/-- **Where the path can be followed, there is nothing to make.** -/
theorem Made.eq_of_follow (hf : disk.follow root = .ok here)
    (h : Made (Path.ancestors root) disk next) : next = disk := by
  induction h with
  | refl => rfl
  | tail _ hstep ih =>
    subst ih
    obtain ⟨path, hmem, hok⟩ := hstep
    exact absurd hok (makeDirectory_ancestor_ne hf hmem)

/-- A path that can be followed leads to a directory or to the name of one. -/
theorem destination?_of_follow (hu : unusable? path = none) (hf : disk.follow path = .ok here) :
    disk.destination? path = .ok (.directory here) ∨
      ∃ parent name, disk.destination? path = .ok (.name parent name) ∧
        disk.at? (parent ++ [name]) = some .directory := by
  unfold destination?
  rw [hu]
  dsimp only
  cases hlast : (pathNames path).getLast? with
  | none =>
    rw [follow, List.getLast?_eq_none_iff.mp hlast, enterAll] at hf
    cases hf
    exact Or.inl rfl
  | some last =>
    obtain ⟨front, hfront⟩ := List.getLast?_eq_some_iff.mp hlast
    rw [follow, hfront, enterAll_append] at hf
    rw [hfront, List.dropLast_concat]
    cases hparent : disk.enterAll (disk.startOf path) front with
    | error reason => rw [hparent] at hf; cases hf
    | ok parent =>
      rw [hparent] at hf
      have henter : disk.enter parent last = .ok here := by
        cases he : disk.enter parent last with
        | error reason => simp [enterAll, he] at hf
        | ok mid => simpa [enterAll, he] using hf
      dsimp only
      -- The last name is not looked up if it is one with a meaning of its own.
      by_cases hhere : last = "."
      · subst hhere
        cases henter
        exact Or.inl rfl
      · by_cases hup : last = ".."
        · subst hup
          cases henter
          exact Or.inl rfl
        · obtain ⟨hshort, hat, -⟩ := (enter_plain_ok hhere hup).mp henter
          rw [if_neg hhere, if_neg hup, if_neg (Nat.not_lt.mpr hshort)]
          exact Or.inr ⟨parent, last, rfl, hat⟩

theorem makeDirectory_of_follow (hu : unusable? path = none) (hf : disk.follow path = .ok here) :
    disk.makeDirectory path = .error .alreadyExists ∧ disk.leadsToDirectory path = true := by
  rcases destination?_of_follow hu hf with hd | ⟨parent, name, hd, hat⟩
  · simp only [makeDirectory, leadsToDirectory, find?, hd, and_self]
  · simp only [makeDirectory, leadsToDirectory, find?, hd, hat, Option.isSome_some, if_true,
      and_self]

/-- **Making a directory that can be reached succeeds and changes nothing.** -/
theorem makeDirectories_of_follow (hu : path = "" ∨ unusable? path = none)
    (hf : disk.follow path = .ok here) : disk.makeDirectories path = (.ok (), disk) := by
  have houtermost : disk.makeOutermost (Path.ancestors path) = (.ok disk, []) := by
    rcases hu with rfl | hu
    · rfl
    · obtain ⟨hmade, hleads⟩ := makeDirectory_of_follow hu hf
      rw [Path.ancestors, Path.ancestorsFrom]
      cases Path.parent? path with
      | none => rfl
      | some parent => simp [makeOutermost, hmade, hleads]
  rw [makeDirectories, houtermost]
  rfl

/-! ## Directories of a straight path -/

/-- Without names `..` the place that names lead to is made up of them. -/
theorem enterAll_noUp : ∀ {names : List String} {here there : Location}, ".." ∉ names →
    disk.enterAll here names = .ok there → there = here ++ names.filter (· != ".") := by
  intro names
  induction names with
  | nil =>
    intro here there _ h
    simpa [enterAll] using h.symm
  | cons name names ih =>
    intro here there hno h
    have hup : name ≠ ".." := fun e => hno (e ▸ List.mem_cons_self ..)
    have hrest : ".." ∉ names := fun hm => hno (List.mem_cons_of_mem _ hm)
    rw [enterAll] at h
    cases he : disk.enter here name with
    | error reason => rw [he] at h; cases h
    | ok mid =>
      rw [he] at h
      have hthere := ih hrest h
      by_cases hhere : name = "."
      · subst hhere
        simp only [enter_here, Except.ok.injEq] at he
        subst he
        simpa using hthere
      · obtain ⟨-, -, rfl⟩ := (enter_plain_ok hhere hup).mp he
        rw [hthere, List.filter_cons_of_pos (by simpa using hhere), List.append_assoc,
          List.singleton_append]

/-- Whether no name `..` of a path comes behind a directory that is missing: the first names of the
path can be followed, and none of the others is `..`. -/
def IsStraight (disk : Disk) (path : String) : Prop :=
  ∃ front back here, pathNames path = front ++ back ∧
    disk.enterAll (disk.startOf path) front = .ok here ∧ ".." ∉ back

theorem isStraight_of_noUp (h : ".." ∉ pathNames path) : disk.IsStraight path :=
  ⟨[], pathNames path, disk.startOf path, rfl, rfl, h⟩

theorem isStraight_of_follow (h : disk.follow path = .ok here) : disk.IsStraight path :=
  ⟨pathNames path, [], here, (List.append_nil _).symm, h, List.not_mem_nil⟩

/-- Directories that are made on the way along a path stand behind the names of it that could be
followed before, if there is no name `..` behind these. -/
theorem Made.at?_of_straight {front back : List String} (hnames : pathNames root = front ++ back)
    (hreach : disk.enterAll (disk.startOf root) front = .ok here) (hno : ".." ∉ back)
    (h : Made (Path.ancestors root) disk next) {location : Location}
    (hloc : ¬location <+: here ++ back.filter (· != ".")) :
    next.at? location = disk.at? location := by
  induction h with
  | refl => rfl
  | @tail mid next hmade hstep ih =>
    rw [← ih]
    have hkeep := Made.keepsDirectories hmade
    have hstart : mid.startOf root = disk.startOf root := by simp only [startOf, hkeep.working]
    have hreached : mid.enterAll (mid.startOf root) front = .ok here := by
      rw [hstart]
      exact enterAll_mono hkeep hreach
    obtain ⟨path, hmem, hok⟩ := hstep
    obtain ⟨begun, parent, name, hbegun, henter, hhere, hup, hnone, rfl, -⟩ :=
      makeDirectory_ancestor_ok hmem hok
    -- The new directory lies behind `front`: up to there everything can be followed already.
    obtain ⟨more, rfl⟩ : front <+: begun := by
      rcases List.prefix_or_prefix_of_prefix hbegun ⟨back, hnames.symm⟩ with hle | hle
      · obtain ⟨there, hthere⟩ := enterAll_front hle hreached
        exact absurd hnone (at?_ne_none_of_enterAll hhere hup henter hthere)
      · rcases List.prefix_concat_iff.mp hle with heq | hbehind
        · rw [heq] at hreached
          exact absurd hnone (at?_ne_none_of_enterAll hhere hup henter hreached)
        · exact hbehind
    rw [hnames, List.append_assoc, List.prefix_append_right_inj] at hbegun
    obtain ⟨others, hothers⟩ := hbegun
    rw [enterAll_append, hreached] at henter
    have hnoMore : ".." ∉ more := fun hm =>
      hno (hothers ▸ List.mem_append_left _ (List.mem_append_left _ hm))
    have hparent := enterAll_noUp hnoMore henter
    refine at?_put_ne (fun hsame => hloc ?_) mid .directory
    rw [hsame, hparent, ← hothers, List.filter_append, List.filter_append,
      List.filter_cons_of_pos (by simpa using hhere)]
    exact ⟨others.filter (· != "."), by simp⟩

/-- In a tree a place can be reached if a directory stands there and none of the names on the way is
too long. -/
theorem enterAll_of_directory (htree : disk.IsTree) :
    ∀ {names : List String} {here there : Location}, ".." ∉ names →
      next.enterAll here names = .ok there → disk.at? there = some .directory →
        disk.enterAll here names = .ok there := by
  intro names
  induction names with
  | nil => intro here there _ h _; exact h
  | cons name names ih =>
    intro here there hno h hat
    have hup : name ≠ ".." := fun e => hno (e ▸ List.mem_cons_self ..)
    have hrest : ".." ∉ names := fun hm => hno (List.mem_cons_of_mem _ hm)
    rw [enterAll] at h ⊢
    cases he : next.enter here name with
    | error reason => rw [he] at h; cases h
    | ok mid =>
      rw [he] at h
      suffices hmid : disk.enter here name = .ok mid by
        rw [hmid]
        exact ih hrest h hat
      by_cases hhere : name = "."
      · subst hhere
        exact he
      · obtain ⟨hshort, -, rfl⟩ := (enter_plain_ok hhere hup).mp he
        refine (enter_plain_ok hhere hup).mpr ⟨hshort, ?_, rfl⟩
        have hthere := enterAll_noUp hrest h
        by_cases hnil : names.filter (· != ".") = []
        · rw [hnil, List.append_nil] at hthere
          rw [← hthere, hat]
        · rw [hthere] at hat
          exact htree.directory_above hnil (by rw [hat]; exact Option.some_ne_none _)

/-- **Making the directories of a straight path brings nothing to light in its directory.** -/
theorem Made.standing_of_straight (htree : disk.IsTree) (hstraight : disk.IsStraight root)
    (hname : IsPlain name) (h : Made (Path.ancestors root) disk next) :
    next.standing (Path.join root name) = disk.standing (Path.join root name) := by
  obtain ⟨front, back, here, hnames, hreach, hno⟩ := hstraight
  cases hf : disk.follow root with
  | ok here => rw [h.eq_of_follow hf]
  | error reason =>
    rw [standing_join_of_error hname hf]
    cases hf' : next.follow root with
    | error reason => exact standing_join_of_error hname hf'
    | ok there =>
      have hstart : next.startOf root = disk.startOf root := by
        simp only [startOf, h.keepsDirectories.working]
      have hback : next.enterAll here back = .ok there := by
        rwa [follow, hstart, hnames, enterAll_append,
          enterAll_mono h.keepsDirectories hreach] at hf'
      have hthere := enterAll_noUp hno hback
      -- Anything there would stand in a directory, and that could have been reached before.
      have hnothing : disk.at? (there ++ [name]) = none := by
        by_contra hsome
        have hreachable := enterAll_of_directory htree hno hback (htree there name hsome)
        have hfollow : disk.follow root = .ok there := by
          rw [follow, hnames, enterAll_append, hreach]
          exact hreachable
        rw [hfollow] at hf
        cases hf
      -- Directories are made on the way to `there`, not below it.
      have hat : next.at? (there ++ [name]) = none := by
        rw [← hnothing, hthere]
        refine h.at?_of_straight hnames hreach hno fun hle => ?_
        have := hle.length_le
        simp only [List.length_append, List.length_singleton] at this
        omega
      funext below
      by_cases ht : Takes root name
      · rw [standing_join hname ht hf', hat]
        rfl
      · rw [standing_join_of_not_takes hname ht]

theorem Made.standing_of_noUp (htree : disk.IsTree) (hno : ".." ∉ pathNames root)
    (hname : IsPlain name) (h : Made (Path.ancestors root) disk next) :
    next.standing (Path.join root name) = disk.standing (Path.join root name) :=
  h.standing_of_straight htree (isStraight_of_noUp hno) hname

/-! ## A directory that is missing -/

/-- Whether a path leads nowhere, but the path of its parent can be followed. -/
def IsMissing (disk : Disk) (path : String) : Prop :=
  disk.follow path = .error .notFound ∧
    ∃ parent here, Path.parent? path = some parent ∧ disk.follow parent = .ok here

/-- Where a missing directory would stand: nothing is there, and it is the only one of the path's
directories that can be made. -/
theorem IsMissing.place (h : disk.IsMissing root) :
    ∃ home : Location, disk.at? home = none ∧
      ∀ path ∈ Path.ancestors root, ∀ next, disk.makeDirectory path = .ok next →
        next = disk.put home .directory ∧ next.follow root = .ok home := by
  obtain ⟨hf, parent, here, hparent, hhere⟩ := h
  obtain ⟨⟨between, last, after, hnames, hbetween, hafter⟩, hstart⟩ := parent?_names hparent
  have hreach : disk.enterAll (disk.startOf root) (pathNames parent ++ between) = .ok here := by
    rw [enterAll_append, ← hstart disk, show disk.enterAll _ (pathNames parent) = _ from hhere]
    exact enterAll_dots hbetween
  have hlast : disk.enter here last = .error .notFound := by
    rw [follow, hnames, enterAll_append, hreach] at hf
    simp only [enterAll] at hf
    cases he : disk.enter here last with
    | error reason => simpa [he] using hf
    | ok mid => simp [he, enterAll_dots hafter] at hf
  obtain ⟨hne, hup, hshort, hat⟩ := enter_notFound hlast
  refine ⟨here ++ [last], hat, fun path hmem next hmade => ?_⟩
  obtain ⟨above, name, front, hpath, henter, hname, hnameUp, -, hnone, rfl⟩ :=
    makeDirectory_ok hmade
  obtain ⟨hfront, hstartPath⟩ := mem_ancestors hmem
  rw [hstartPath disk] at henter
  rw [hpath] at hfront
  have hwhole : pathNames parent ++ between ++ [last] <+: pathNames root :=
    ⟨after, by rw [hnames, List.append_assoc, List.singleton_append]⟩
  -- The name that is made is the missing one: before it everything is there, behind it nothing is.
  have hsame : front = pathNames parent ++ between ∧ name = last := by
    rcases List.prefix_or_prefix_of_prefix hfront hwhole with hle | hle
    · rcases List.prefix_concat_iff.mp hle with heq | hbefore
      · simpa using List.append_inj' heq rfl
      · obtain ⟨mid, hmid⟩ := enterAll_front hbefore hreach
        exact absurd hnone (at?_ne_none_of_enterAll hname hnameUp henter hmid)
    · rcases List.prefix_concat_iff.mp hle with heq | hbehind
      · simpa [eq_comm] using List.append_inj' heq rfl
      · obtain ⟨mid, hmid⟩ := enterAll_front hbehind henter
        exact absurd hat (at?_ne_none_of_enterAll hne hup hreach hmid)
  obtain ⟨rfl, rfl⟩ := hsame
  obtain rfl : above = here := Except.ok.inj (henter.symm.trans hreach)
  refine ⟨rfl, ?_⟩
  have hkeep := keepsDirectories_of_makeDirectory hmade
  have hnew : above ++ [name] ≠ [] := by simp
  have hput := at?_put_self hnew disk .directory
  have hstart' : (disk.put (above ++ [name]) .directory).startOf root = disk.startOf root := rfl
  rw [follow, hnames, hstart', enterAll_append, enterAll_mono hkeep hreach]
  simp only [enterAll, (enter_plain_ok hne hup).mpr ⟨hshort, hput, rfl⟩, enterAll_dots hafter]

/-- **Making a missing directory leaves it missing or makes it, with nothing in it.** -/
theorem Made.cases_of_missing (htree : disk.IsTree) (hmissing : disk.IsMissing root)
    (h : Made (Path.ancestors root) disk next) :
    next = disk ∨ (∃ home, next.follow root = .ok home ∧
      ∀ name, next.at? (home ++ [name]) = none) := by
  obtain ⟨home, hat, honly⟩ := hmissing.place
  induction h with
  | refl => exact Or.inl rfl
  | tail _ hstep ih =>
    obtain ⟨path, hmem, hok⟩ := hstep
    rcases ih with rfl | ⟨there, hfollow, -⟩
    -- Once the directory is there, no step is left that could make another.
    · obtain ⟨rfl, hfollow⟩ := honly path hmem _ hok
      refine Or.inr ⟨home, hfollow, fun name => ?_⟩
      have hne : home ++ [name] ≠ home := fun e => by
        have := congrArg List.length e
        simp at this
      rw [at?_put_ne hne]
      by_contra hsome
      rw [htree home name hsome] at hat
      cases hat
    · exact absurd hok (makeDirectory_ancestor_ne hfollow hmem)

end FileLore.Disk
