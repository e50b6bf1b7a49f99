import FileLore.Disk.FileTask
import FileLore.Proofs.Disk.Directory
import Mathlib.Data.List.Infix

/-!
# What a program does not look at

Two disks can differ in a way that a program never comes across. A `View` says in
what way: in what stands at a hidden place and below it, and in what the file at
another place, the log, holds. Disks that differ in no more than that look alike.

There are no links on a disk, so a path says by its names alone which places are
looked at when it is followed, whatever stands there. A path that keeps clear of the
hidden place leads to the same place on disks that look alike, or fails for the same
reason (`destination?_alike`); an operation on such paths has the same answer, and
disks that looked alike before do so after it (`perform_alike`). Hence a task all of
whose operations are of this kind, whatever the answers to them, cannot tell such
disks apart (`FileTask.StaysWithin.run_alike`).
-/

namespace FileLore

namespace Disk

variable {disk other : Disk} {here there : Location} {path name : String}

/-! ## The places of a path -/

/-- The place that a name leads to from another one, if it leads anywhere. -/
def onward (here : Location) (name : String) : Location :=
  if name = "." then here
  else if name = ".." then here.dropLast
  else here ++ [name]

theorem onward_plain (hhere : name ≠ ".") (hup : name ≠ "..") :
    onward here name = here ++ [name] := by
  rw [onward, if_neg hhere, if_neg hup]

theorem enter_ok (h : disk.enter here name = .ok there) : there = onward here name := by
  by_cases hhere : name = "."
  · subst hhere
    exact (Except.ok.inj h).symm
  by_cases hup : name = ".."
  · subst hup
    exact (Except.ok.inj h).symm
  rw [onward_plain hhere hup]
  exact ((enter_plain_ok hhere hup).mp h).2.2

/-- Where names lead is a matter of the names alone. -/
theorem enterAll_ok : ∀ {names : List String} {here : Location},
    disk.enterAll here names = .ok there → there = names.foldl onward here := by
  intro names
  induction names with
  | nil => exact fun h => (Except.ok.inj h).symm
  | cons name names ih =>
    intro here h
    rw [enterAll] at h
    cases he : disk.enter here name with
    | error reason => rw [he] at h; cases h
    | ok mid =>
      rw [he] at h
      rw [List.foldl_cons, ← enter_ok he]
      exact ih h

/-- What is left out of a list of entries by their locations does not hide the others. -/
theorem lookup_filter (keeps : Location → Bool) (location : Location)
    (entries : List (Location × Entry)) :
    (entries.filter fun old => keeps old.1).lookup location =
      if keeps location then entries.lookup location else none := by
  induction entries with
  | nil => simp
  | cons first rest ih =>
    obtain ⟨place, entry⟩ := first
    by_cases hsame : location = place
    · subst hsame
      cases h : keeps location with
      | true => simp [h]
      | false => simpa [h] using ih
    · have hne : (location == place) = false := by simpa using hsame
      cases h : keeps place <;> simpa [h, List.lookup_cons, hne] using ih

theorem at?_eraseTree (disk : Disk) (hne : there ≠ []) :
    (disk.eraseTree here).at? there = if here <+: there then none else disk.at? there := by
  have hleft := lookup_filter (fun location => !here.isPrefixOf location) there disk.entries
  rw [at?, at?, if_neg hne, if_neg hne, eraseTree]
  dsimp only
  rw [hleft]
  by_cases h : here <+: there
  · rw [if_pos h, List.isPrefixOf_iff_prefix.mpr h]
    rfl
  · rw [if_neg h, Bool.eq_false_iff.mpr (mt List.isPrefixOf_iff_prefix.mp h)]
    rfl

/-! ## Views -/

/-- What a program looks at of a disk: the working directory that it starts from, the place that it
does not look at, and the file whose content it does not look at. -/
structure View where
  working : Location
  hidden : Location
  log : Location

namespace View

/-- Where a path starts. -/
def startOf (view : View) (path : String) : Location := (Disk.mk [] view.working).startOf path

/-- The place that a path leads to if it leads anywhere. -/
def placeOf (view : View) (path : String) : Location :=
  (pathNames path).foldl onward (view.startOf path)

/-- Whether a place is neither the hidden one nor below it. -/
def Shows (view : View) (place : Location) : Prop := ¬ view.hidden <+: place

/-- Whether a path keeps clear of the hidden place, from where it starts to where it leads. -/
def IsClear (view : View) (path : String) : Prop :=
  ∀ names, names <+: pathNames path → view.Shows (names.foldl onward (view.startOf path))

/-- Whether what a path leads to may be looked at: the path keeps clear of the hidden place and does
not lead to the log. -/
structure IsReadable (view : View) (path : String) : Prop where
  clear : view.IsClear path
  ne_log : view.placeOf path ≠ view.log

instance (view : View) (place : Location) : Decidable (view.Shows place) :=
  inferInstanceAs (Decidable (¬ view.hidden <+: place))

instance (view : View) (path : String) : Decidable (view.IsClear path) :=
  decidable_of_iff
    (∀ names ∈ (pathNames path).inits, view.Shows (names.foldl onward (view.startOf path)))
    (by simp only [List.mem_inits, IsClear])

/-- Whether what stands at a place of two disks looks alike: it is the same, or the place is that of
the log and both are files. -/
inductive Matches (view : View) (place : Location) : Option Entry → Option Entry → Prop where
  | same (found? : Option Entry) : Matches view place found? found?
  | log (h : place = view.log) (content content' : ByteArray) :
    Matches view place (some (.file content)) (some (.file content'))

/-- Whether two disks look alike. -/
structure Alike (view : View) (disk other : Disk) : Prop where
  working : disk.workingDirectory = view.working
  working' : other.workingDirectory = view.working
  at? : ∀ place, view.Shows place → view.Matches place (disk.at? place) (other.at? place)

/-- Whether a path is found to lead to what looks alike: nowhere for the same reason, to the same
directory, or to a file in the place that its names say. -/
inductive SameFound (view : View) (path : String) :
    Except DiskError (Location × Entry) → Except DiskError (Location × Entry) → Prop where
  | error (reason : DiskError) : SameFound view path (.error reason) (.error reason)
  | directory (place : Location) :
    SameFound view path (.ok (place, .directory)) (.ok (place, .directory))
  | file (content : ByteArray) :
    SameFound view path (.ok (view.placeOf path, .file content))
      (.ok (view.placeOf path, .file content))
  | log (h : view.placeOf path = view.log) (content content' : ByteArray) :
    SameFound view path (.ok (view.placeOf path, .file content))
      (.ok (view.placeOf path, .file content'))

/-- Whether an operation leaves disks that look alike, or fails for the same reason. -/
inductive SameResult (view : View) : Except DiskError Disk → Except DiskError Disk → Prop where
  | ok {next next' : Disk} (h : view.Alike next next') : SameResult view (.ok next) (.ok next')
  | error (reason : DiskError) : SameResult view (.error reason) (.error reason)

variable {view : View}

theorem startOf_eq (h : disk.workingDirectory = view.working) (path : String) :
    disk.startOf path = view.startOf path := by
  simp only [Disk.startOf, View.startOf, h]

theorem Matches.isSome_eq {place : Location} {found? found?' : Option Entry}
    (h : view.Matches place found? found?') : found?'.isSome = found?.isSome := by
  cases h <;> rfl

theorem SameResult.ite {condition : Prop} [Decidable condition]
    {result result' another another' : Except DiskError Disk} (h : view.SameResult result result')
    (h' : view.SameResult another another') :
    view.SameResult (if condition then result else another)
      (if condition then result' else another') := by
  split
  next => exact h
  next => exact h'

/-! ## Paths that keep clear -/

theorem IsClear.shows (h : view.IsClear path) : view.Shows (view.placeOf path) :=
  h _ (List.prefix_refl _)

/-- With a path its ancestors keep clear. -/
theorem IsClear.ancestor (h : view.IsClear path) {ancestor : String}
    (hmem : ancestor ∈ Path.ancestors path) : view.IsClear ancestor := by
  obtain ⟨hfront, hstart⟩ := mem_ancestors hmem
  intro names hnames
  rw [View.startOf, hstart]
  exact h names (hnames.trans hfront)

theorem placeOf_join (h : IsPlain name) (base : String) :
    view.placeOf (Path.join base name) = view.placeOf base ++ [name] := by
  rw [placeOf, placeOf, View.startOf, View.startOf, pathNames_join h, startOf_join h,
    List.foldl_append, List.foldl_cons, List.foldl_nil, onward_plain h.ne_here h.ne_up]

/-- With a directory's path every plain name in the directory keeps clear that is not the name of
the hidden place. -/
theorem IsClear.join {base : String} (h : view.IsClear base) (hname : IsPlain name)
    (hne : view.hidden.getLast? ≠ some name) : view.IsClear (Path.join base name) := by
  intro names hnames
  rw [pathNames_join hname] at hnames
  rcases List.prefix_concat_iff.mp hnames with rfl | hfront
  · rw [← pathNames_join hname, ← placeOf, placeOf_join hname]
    intro hhidden
    rcases List.prefix_concat_iff.mp hhidden with heq | hbefore
    · exact hne (by rw [heq, List.getLast?_concat])
    · exact h.shows hbefore
  · rw [View.startOf, startOf_join hname]
    exact h names hfront

/-! ## Following paths -/

theorem enter_alike (h : view.Alike disk other) (hshows : view.Shows (onward here name)) :
    other.enter here name = disk.enter here name := by
  by_cases hhere : name = "."
  · subst hhere
    rfl
  by_cases hup : name = ".."
  · subst hup
    rfl
  rw [onward_plain hhere hup] at hshows
  have hmatches := h.at? _ hshows
  simp only [enter, if_neg hhere, if_neg hup]
  generalize disk.at? (here ++ [name]) = found? at hmatches
  generalize other.at? (here ++ [name]) = found?' at hmatches
  cases hmatches <;> rfl

theorem enterAll_alike (h : view.Alike disk other) : ∀ (names : List String) (here : Location),
    (∀ front, front <+: names → view.Shows (front.foldl onward here)) →
      other.enterAll here names = disk.enterAll here names := by
  intro names
  induction names with
  | nil => exact fun here _ => rfl
  | cons name names ih =>
    intro here hshows
    have hfirst : view.Shows (onward here name) :=
      hshows [name] (List.cons_prefix_cons.mpr ⟨rfl, List.nil_prefix⟩)
    rw [enterAll, enterAll, enter_alike h hfirst]
    cases he : disk.enter here name with
    | error reason => rfl
    | ok mid =>
      rw [enter_ok he]
      exact ih _ fun front hfront =>
        hshows (name :: front) (List.cons_prefix_cons.mpr ⟨rfl, hfront⟩)

/-- **A path that keeps clear leads to the same place**, or fails for the same reason. -/
theorem destination?_alike (h : view.Alike disk other) (hclear : view.IsClear path) :
    other.destination? path = disk.destination? path := by
  have henter : other.enterAll (view.startOf path) (pathNames path).dropLast =
      disk.enterAll (view.startOf path) (pathNames path).dropLast :=
    enterAll_alike h _ _ fun front hfront => hclear front (hfront.trans (List.dropLast_prefix _))
  simp only [destination?, startOf_eq h.working, startOf_eq h.working', henter]

theorem destination?_place (h : disk.workingDirectory = view.working)
    (hd : disk.destination? path = .ok (.name here name)) :
    view.placeOf path = here ++ [name] ∧
      ∃ front, front <+: pathNames path ∧ here = front.foldl onward (view.startOf path) := by
  obtain ⟨front, hnames, henter, hhere, hup, -⟩ := destination?_name hd
  rw [startOf_eq h] at henter
  have hplace := enterAll_ok henter
  refine ⟨?_, front, ⟨[name], hnames.symm⟩, hplace⟩
  rw [placeOf, hnames, List.foldl_append, List.foldl_cons, List.foldl_nil, ← hplace,
    onward_plain hhere hup]

/-- Where what is found under a plain name in a directory stands. -/
theorem find?_join_place (h : disk.workingDirectory = view.working) {base : String}
    (hname : IsPlain name) {entry : Entry}
    (hfound : disk.find? (Path.join base name) = .ok (there, entry)) :
    view.placeOf (Path.join base name) = there ∧ disk.at? there = some entry := by
  obtain ⟨-, here, hfollow, rfl, hat⟩ := find?_join_ok hname hfound
  rw [follow, startOf_eq h] at hfollow
  rw [placeOf_join hname, placeOf, ← enterAll_ok hfollow]
  exact ⟨rfl, hat⟩

theorem find?_alike (h : view.Alike disk other) (hclear : view.IsClear path) :
    view.SameFound path (disk.find? path) (other.find? path) := by
  rw [find?, find?, destination?_alike h hclear]
  split
  next reason hd => exact .error reason
  next place hd => exact .directory place
  next parent name hd =>
    have hplace := (destination?_place h.working hd).1
    have hmatches := h.at? _ hclear.shows
    rw [hplace] at hmatches
    dsimp only
    generalize disk.at? (parent ++ [name]) = found? at hmatches
    generalize other.at? (parent ++ [name]) = found?' at hmatches
    rw [← hplace] at hmatches ⊢
    -- Where the disks hold different things, both hold a file, and whether a slash asks for a
    -- directory is a matter of the path.
    cases hmatches with
    | same found? =>
      cases found? with
      | none => exact .error _
      | some entry =>
        cases entry with
        | directory => exact .directory _
        | file content =>
          dsimp only
          split
          next => exact .error _
          next => exact .file content
    | log hlog content content' =>
      dsimp only
      split
      next => exact .error _
      next => exact .log hlog content content'

theorem leadsToDirectory_alike (h : view.Alike disk other) (hclear : view.IsClear path) :
    other.leadsToDirectory path = disk.leadsToDirectory path := by
  have hfound := find?_alike h hclear
  rw [leadsToDirectory, leadsToDirectory]
  generalize disk.find? path = found at hfound ⊢
  generalize other.find? path = found' at hfound ⊢
  cases hfound <;> rfl

theorem contentOf_alike (h : view.Alike disk other) (hpath : view.IsReadable path) :
    other.contentOf path = disk.contentOf path := by
  have hfound := find?_alike h hpath.clear
  rw [contentOf, contentOf]
  generalize disk.find? path = found at hfound ⊢
  generalize other.find? path = found' at hfound ⊢
  cases hfound with
  | error reason => rfl
  | directory place => rfl
  | file content => rfl
  | log hlog content content' => exact absurd hlog hpath.ne_log

/-! ## Changing disks -/

/-- Disks look alike after what looks alike has been put at a place of both. -/
theorem Alike.put (h : view.Alike disk other) {entry entry' : Entry} {place : Location}
    (hentry : view.Matches place (some entry) (some entry')) :
    view.Alike (disk.put place entry) (other.put place entry') := by
  refine ⟨h.working, h.working', fun there hshows => ?_⟩
  by_cases hthere : there = place
  · subst hthere
    by_cases hroot : there = []
    · subst hroot
      exact .same _
    · rw [at?_put_self hroot, at?_put_self hroot]
      exact hentry
  · rw [at?_put_ne hthere, at?_put_ne hthere]
    exact h.at? there hshows

theorem Alike.erase (h : view.Alike disk other) (place : Location) :
    view.Alike (disk.erase place) (other.erase place) := by
  refine ⟨h.working, h.working', fun there hshows => ?_⟩
  by_cases hthere : there = place
  · subst hthere
    by_cases hroot : there = []
    · subst hroot
      exact .same _
    · rw [at?_erase_self hroot, at?_erase_self hroot]
      exact .same _
  · rw [at?_erase_ne hthere, at?_erase_ne hthere]
    exact h.at? there hshows

theorem isDirectory_alike (h : view.Alike disk other) {place : Location}
    (hshows : view.Shows place) : other.isDirectory place = disk.isDirectory place := by
  have hmatches := h.at? place hshows
  rw [isDirectory, isDirectory]
  generalize disk.at? place = found? at hmatches ⊢
  generalize other.at? place = found?' at hmatches ⊢
  cases hmatches <;> rfl

/-- A disk looks the same without what is hidden. -/
theorem alike_eraseTree (h : disk.workingDirectory = view.working) :
    view.Alike disk (disk.eraseTree view.hidden) := by
  refine ⟨h, h, fun place hshows => ?_⟩
  by_cases hroot : place = []
  · subst hroot
    exact .same _
  · rw [at?_eraseTree disk hroot, if_neg hshows]
    exact .same _

/-- What operations look up of a path that keeps clear and leads to a name: what stands under the
name looks alike, and there is a directory to hold it on both disks or on neither. -/
theorem destination_alike (h : view.Alike disk other) (hclear : view.IsClear path)
    (hd : disk.destination? path = .ok (.name here name)) :
    view.Matches (view.placeOf path) (disk.at? (here ++ [name])) (other.at? (here ++ [name])) ∧
      other.isDirectory here = disk.isDirectory here := by
  obtain ⟨hplace, front, hfront, hhere⟩ := destination?_place h.working hd
  rw [← hplace]
  refine ⟨h.at? _ hclear.shows, isDirectory_alike h ?_⟩
  rw [hhere]
  exact hclear front hfront

theorem makeDirectory_alike (h : view.Alike disk other) (hclear : view.IsClear path) :
    view.SameResult (disk.makeDirectory path) (other.makeDirectory path) := by
  rw [makeDirectory, makeDirectory, destination?_alike h hclear]
  split
  next reason hd => exact .error reason
  next place hd => exact .error _
  next parent name hd =>
    obtain ⟨hmatches, hdirectory⟩ := destination_alike h hclear hd
    rw [hmatches.isSome_eq, hdirectory]
    exact .ite (.error _) (.ite (.ok (h.put (.same _))) (.error _))

theorem makeOutermost_alike (h : view.Alike disk other) : ∀ paths : List String,
    (∀ path ∈ paths, view.IsClear path) →
      view.SameResult (disk.makeOutermost paths).1 (other.makeOutermost paths).1 ∧
        (other.makeOutermost paths).2 = (disk.makeOutermost paths).2 := by
  intro paths
  induction paths with
  | nil => exact fun _ => ⟨.ok h, rfl⟩
  | cons path parents ih =>
    intro hclear
    have hfirst := hclear path (List.mem_cons_self ..)
    obtain ⟨hresult, hmissing⟩ := ih fun parent hmem => hclear parent (List.mem_cons_of_mem _ hmem)
    have hmade := makeDirectory_alike h hfirst
    rw [makeOutermost, makeOutermost, leadsToDirectory_alike h hfirst]
    generalize disk.makeDirectory path = made at hmade ⊢
    generalize other.makeDirectory path = made' at hmade ⊢
    cases hmade with
    | ok hnext => exact ⟨.ok hnext, rfl⟩
    | error reason =>
      -- Only two reasons let the search go on or end well.
      cases reason with
      | notFound => exact ⟨hresult, congrArg (path :: ·) hmissing⟩
      | alreadyExists =>
        cases disk.leadsToDirectory path with
        | true => exact ⟨.ok h, rfl⟩
        | false => exact ⟨.error _, rfl⟩
      | _ => exact ⟨.error _, rfl⟩

theorem makeEach_alike : ∀ (paths : List String) {disk other : Disk}, view.Alike disk other →
    (∀ path ∈ paths, view.IsClear path) →
      (other.makeEach paths).1 = (disk.makeEach paths).1 ∧
        view.Alike (disk.makeEach paths).2 (other.makeEach paths).2 := by
  intro paths
  induction paths with
  | nil => exact fun h _ => ⟨rfl, h⟩
  | cons path rest ih =>
    intro disk other h hclear
    have hfirst := hclear path (List.mem_cons_self ..)
    have hrest : ∀ other ∈ rest, view.IsClear other := fun other hmem =>
      hclear other (List.mem_cons_of_mem _ hmem)
    have hmade := makeDirectory_alike h hfirst
    rw [makeEach, makeEach, leadsToDirectory_alike h hfirst]
    generalize disk.makeDirectory path = made at hmade ⊢
    generalize other.makeDirectory path = made' at hmade ⊢
    cases hmade with
    | ok hnext => exact ih hnext hrest
    | error reason =>
      dsimp only
      split
      next => exact ih h hrest
      next => exact ⟨rfl, h⟩

theorem makeDirectories_alike (h : view.Alike disk other) (hclear : view.IsClear path) :
    (other.makeDirectories path).1 = (disk.makeDirectories path).1 ∧
      view.Alike (disk.makeDirectories path).2 (other.makeDirectories path).2 := by
  have hall : ∀ ancestor ∈ Path.ancestors path, view.IsClear ancestor := fun ancestor hmem =>
    hclear.ancestor hmem
  obtain ⟨hresult, hmissing⟩ := makeOutermost_alike h (Path.ancestors path) hall
  have hsub := (@makeOutermost_made disk (Path.ancestors path)).2
  rw [makeDirectories, makeDirectories]
  generalize disk.makeOutermost (Path.ancestors path) = made at hresult hmissing hsub ⊢
  generalize other.makeOutermost (Path.ancestors path) = made' at hresult hmissing ⊢
  obtain ⟨result, missing⟩ := made
  obtain ⟨result', missing'⟩ := made'
  dsimp only at hresult hmissing hsub
  subst hmissing
  cases hresult with
  | error reason => exact ⟨rfl, h⟩
  | ok hnext =>
    exact makeEach_alike _ hnext fun path hmem => hall path (hsub path (List.mem_reverse.mp hmem))

theorem changeFile_alike (h : view.Alike disk other) (hclear : view.IsClear path)
    (content : Option ByteArray → ByteArray) :
    view.SameResult (disk.changeFile path content) (other.changeFile path content) := by
  rw [changeFile, changeFile, destination?_alike h hclear]
  split
  next reason hd => exact .error reason
  next place hd => exact .error _
  next parent name hd =>
    have hplace := (destination?_place h.working hd).1
    obtain ⟨hmatches, hdirectory⟩ := destination_alike h hclear hd
    dsimp only
    rw [hdirectory]
    generalize disk.at? (parent ++ [name]) = found? at hmatches ⊢
    generalize other.at? (parent ++ [name]) = found?' at hmatches ⊢
    cases hmatches with
    | same found? =>
      cases found? with
      | none => exact .ite (.error _) (.ite (.ok (h.put (.same _))) (.error _))
      | some entry =>
        cases entry with
        | directory => exact .error _
        | file old => exact .ite (.error _) (.ok (h.put (.same _)))
    | log hlog old old' => exact .ite (.error _) (.ok (h.put (.log (hplace ▸ hlog) _ _)))

theorem moveFile_alike {target : String} (h : view.Alike disk other) (hpath : view.IsReadable path)
    (htarget : view.IsClear target) :
    view.SameResult (disk.moveFile path target) (other.moveFile path target) := by
  have hfound := find?_alike h hpath.clear
  rw [moveFile, moveFile, destination?_alike h htarget]
  generalize disk.find? path = found at hfound ⊢
  generalize other.find? path = found' at hfound ⊢
  cases hfound with
  | error reason => exact .error reason
  | directory place => exact .error _
  | log hlog content content' => exact absurd hlog hpath.ne_log
  | file content =>
    dsimp only
    split
    next reason hd => exact .error reason
    next place hd => exact .error _
    next parent name hd =>
      obtain ⟨hmatches, hdirectory⟩ := destination_alike h htarget hd
      have hmoved : view.Alike
          ((disk.erase (view.placeOf path)).put (parent ++ [name]) (.file content))
          ((other.erase (view.placeOf path)).put (parent ++ [name]) (.file content)) :=
        (h.erase _).put (.same _)
      rw [hdirectory]
      generalize disk.at? (parent ++ [name]) = found? at hmatches ⊢
      generalize other.at? (parent ++ [name]) = found?' at hmatches ⊢
      cases hmatches with
      | same found? =>
        cases found? with
        | none => exact .ite (.error _) (.ite (.ok hmoved) (.error _))
        | some entry =>
          cases entry with
          | directory => exact .error _
          | file old => exact .ite (.error _) (.ite (.ok hmoved) (.error _))
      | log hlog old old' => exact .ite (.error _) (.ite (.ok hmoved) (.error _))

theorem deleteFile_alike (h : view.Alike disk other) (hclear : view.IsClear path) :
    view.SameResult (disk.deleteFile path) (other.deleteFile path) := by
  have hfound := find?_alike h hclear
  rw [deleteFile, deleteFile]
  generalize disk.find? path = found at hfound ⊢
  generalize other.find? path = found' at hfound ⊢
  cases hfound with
  | error reason => exact .error reason
  | directory place => exact .error _
  | file content => exact .ok (h.erase _)
  | log hlog content content' => exact .ok (h.erase _)

theorem settle_alike (h : view.Alike disk other) {result result' : Except DiskError Disk}
    (hresult : view.SameResult result result') :
    (other.settle result').1 = (disk.settle result).1 ∧
      view.Alike (disk.settle result).2 (other.settle result').2 := by
  cases hresult with
  | ok hnext => exact ⟨rfl, hnext⟩
  | error reason => exact ⟨rfl, h⟩

/-! ## Operations -/

/-- Whether an operation keeps to what the view shows: its paths keep clear of the hidden place, and
it takes nothing out of the log. -/
def Permits (view : View) : Operation → Prop
  | .createDirectories path => view.IsClear path
  | .writeFile path _ => view.IsClear path
  | .appendFile path _ => view.IsClear path
  | .rename source target => view.IsReadable source ∧ view.IsClear target
  | .removeFile path => view.IsClear path
  | .readFile path => view.IsReadable path

/-- **An operation that keeps to what the view shows cannot tell disks apart that look alike**, and
leaves them looking alike. -/
theorem perform_alike (h : view.Alike disk other) {operation : Operation}
    (hpermits : view.Permits operation) :
    (other.perform operation).1 = (disk.perform operation).1 ∧
      view.Alike (disk.perform operation).2 (other.perform operation).2 := by
  cases operation with
  | createDirectories path => exact makeDirectories_alike h hpermits
  | writeFile path content => exact settle_alike h (changeFile_alike h hpermits _)
  | appendFile path content => exact settle_alike h (changeFile_alike h hpermits _)
  | rename source target => exact settle_alike h (moveFile_alike h hpermits.1 hpermits.2)
  | removeFile path => exact settle_alike h (deleteFile_alike h hpermits)
  | readFile path => exact ⟨contentOf_alike h hpermits, h⟩

end View

end Disk

/-! ## Tasks -/

namespace FileTask

open Disk (View)

variable {α β : Type} {view : View}

/-- Whether a task keeps to what the view shows, whatever the answers to its operations are. -/
def StaysWithin (view : View) : FileTask α → Prop
  | done _ => True
  | perform operation next => view.Permits operation ∧ ∀ answer, (next answer).StaysWithin view

theorem StaysWithin.request {operation : Operation} (h : view.Permits operation) :
    (request operation).StaysWithin view :=
  ⟨h, fun _ => trivial⟩

theorem StaysWithin.bind {task : FileTask α} {next : α → FileTask β} (h : task.StaysWithin view)
    (hnext : ∀ value, (next value).StaysWithin view) : (task >>= next).StaysWithin view := by
  induction task with
  | done value => exact hnext value
  | perform operation rest ih => exact ⟨h.1, fun answer => ih answer (h.2 answer)⟩

/-- **A task that keeps to what the view shows ends alike on disks that look alike**: with the same
value, and leaving disks that look alike. -/
theorem StaysWithin.run_alike {task : FileTask α} (h : task.StaysWithin view) :
    ∀ {disk other : Disk}, view.Alike disk other →
      (task.run other).1 = (task.run disk).1 ∧ view.Alike (task.run disk).2 (task.run other).2 := by
  induction task with
  | done value => exact fun halike => ⟨rfl, halike⟩
  | perform operation next ih =>
    intro disk other halike
    obtain ⟨hanswer, hafter⟩ := View.perform_alike halike h.1
    rw [run_perform, run_perform, hanswer]
    exact ih _ (h.2 _) hafter

end FileTask

end FileLore
