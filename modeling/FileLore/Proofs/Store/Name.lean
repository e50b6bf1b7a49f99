import FileLore.Proofs.Disk.Names
import FileLore.Store.Cache

/-!
# Names of artifacts

The names of artifacts and of temporary files are plain names, so both stand
directly in the root of the cache. Two artifacts share a name only if they are of
the same namespace and their paths have the same key (`artifactName_inj`): the
tags of the namespaces differ in their last two letters, whatever the key ends
in. No temporary file has the name of an artifact (`temporaryName_ne`).
-/

namespace FileLore.Cache

open Disk (IsPlain pathNames_join)

theorem notMem_key (path : String) : '/' ∉ (key path).toList := by
  rw [key, String.toList_ofList]
  intro h
  obtain ⟨c, -, hc⟩ := List.mem_map.mp h
  split at hc
  next => exact absurd hc (by decide)
  next hne => exact hne hc

/-- A name with four characters and no slash is a plain one. -/
theorem isPlain_of_length {name : String} (hslash : '/' ∉ name.toList)
    (hlength : 4 ≤ name.toList.length) : IsPlain name := by
  have hne {other : String} (hshort : other.toList.length < 4) : name ≠ other := by
    rintro rfl
    omega
  exact ⟨hslash, hne (by decide), hne (by decide), hne (by decide)⟩

theorem artifactName_toList (category : Namespace) (path : String) :
    (artifactName category path).toList =
      (key path).toList ++ '_' :: category.tag.toList ++ ".json".toList := by
  simp [artifactName]

theorem temporaryName_toList (category : Namespace) (path : String) :
    (temporaryName category path).toList =
      '.' :: (artifactName category path).toList ++ ".tmp".toList := by
  simp [temporaryName]

theorem isPlain_artifactName (category : Namespace) (path : String) :
    IsPlain (artifactName category path) := by
  have htag : '/' ∉ category.tag.toList := by cases category <;> decide
  refine isPlain_of_length ?_ ?_
  · rw [artifactName_toList]
    simp [notMem_key, htag]
  · rw [artifactName_toList]
    simp only [List.length_append, List.length_cons, show ".json".toList.length = 5 from rfl]
    omega

theorem isPlain_temporaryName (category : Namespace) (path : String) :
    IsPlain (temporaryName category path) := by
  refine isPlain_of_length ?_ ?_
  · rw [temporaryName_toList]
    simp [(isPlain_artifactName category path).noSlash]
  · rw [temporaryName_toList]
    simp only [List.length_append, List.length_cons, show ".tmp".toList.length = 4 from rfl]
    omega

theorem artifactName_getLast? (category : Namespace) (path : String) :
    (artifactName category path).toList.getLast? = some 'n' := by
  rw [artifactName_toList, List.getLast?_append, show ".json".toList.getLast? = some 'n' from rfl,
    Option.some_or]

theorem temporaryName_getLast? (category : Namespace) (path : String) :
    (temporaryName category path).toList.getLast? = some 'p' := by
  rw [temporaryName_toList, List.getLast?_append, show ".tmp".toList.getLast? = some 'p' from rfl,
    Option.some_or]

/-- No temporary file has the name of an artifact: the last letters differ. -/
theorem temporaryName_ne (category other : Namespace) (path another : String) :
    artifactName other another ≠ temporaryName category path := by
  intro h
  have hlast := congrArg (fun name => name.toList.getLast?) h
  rw [artifactName_getLast?, temporaryName_getLast?] at hlast
  exact absurd hlast (by decide)

/-- The last two letters of its tag tell a namespace. -/
theorem tag_inj {category other : Namespace}
    (h : category.tag.toList.reverse.take 2 = other.tag.toList.reverse.take 2) :
    category = other := by
  cases category <;> cases other <;> first | rfl | exact absurd h (by decide)

/-- **Artifacts share a name only in one namespace and under one key.** -/
theorem artifactName_inj {category other : Namespace} {path another : String} :
    artifactName category path = artifactName other another ↔
      category = other ∧ key path = key another := by
  constructor
  · intro h
    have hlist := congrArg String.toList h
    rw [artifactName_toList, artifactName_toList] at hlist
    have hfront := List.append_cancel_right hlist
    -- Keys may end in anything, also in what looks like a tag, so only the last letters tell.
    have htail := congrArg (fun text => text.reverse.take 2) hfront
    have hlong (category : Namespace) : 2 ≤ category.tag.toList.length := by
      cases category <;> decide
    obtain rfl : category = other := by
      refine tag_inj ?_
      simpa [List.take_append, Nat.sub_eq_zero_of_le (hlong _)] using htail
    exact ⟨rfl, String.toList_inj.mp (List.append_cancel_right hfront)⟩
  · rintro ⟨rfl, hkey⟩
    rw [artifactName, hkey, artifactName]

/-- Artifacts of two namespaces have different names. -/
theorem artifactName_ne {category other : Namespace} (h : category ≠ other)
    (path another : String) : artifactName category path ≠ artifactName other another :=
  fun hname => h (artifactName_inj.mp hname).1

theorem join_inj {name other base : String} (h : IsPlain name) (h' : IsPlain other)
    (hjoin : Path.join base name = Path.join base other) : name = other := by
  have hnames := congrArg Disk.pathNames hjoin
  rw [pathNames_join h, pathNames_join h'] at hnames
  simpa using hnames

theorem artifactPath_inj (cache : Cache) {category other : Namespace} {path another : String} :
    cache.artifactPath category path = cache.artifactPath other another ↔
      category = other ∧ key path = key another := by
  rw [← artifactName_inj]
  constructor
  · exact join_inj (isPlain_artifactName category path) (isPlain_artifactName other another)
  · intro h
    rw [artifactPath, h, artifactPath]

theorem temporaryPath_ne (cache : Cache) (category other : Namespace) (path another : String) :
    cache.artifactPath other another ≠ cache.temporaryPath category path := fun h =>
  temporaryName_ne category other path another
    (join_inj (isPlain_artifactName other another) (isPlain_temporaryName category path) h)

end FileLore.Cache
