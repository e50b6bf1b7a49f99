import FileLore.Proofs.Store.Step

/-!
# All or nothing

Whatever happens while an artifact is stored, the artifact is afterwards either
what it was before or the whole text that was to be stored, and the latter just
if the temporary file was moved into place (`store_allOrNothing`). This holds at
every point at which storing can be interrupted, for every kind of failure of
every operation, and on every disk: the temporary file may be left over from
another time, a directory may stand in the way, and the root may be missing or
be a file.

The reason is that the artifact is touched by a single operation, which happens
at once or not at all; all that comes before and after works on directories of
the root and on the temporary file.
-/

namespace FileLore.Cache

open Disk

variable {cache : Cache} {category : Namespace} {path payload : String} {disk last : Disk}

/-- An interrupted store leaves alone the artifact, unless it has been put in its place, and all
other artifacts. -/
theorem store_stops_standing (htree : disk.IsTree) (hup : ".." ∉ pathNames cache.root)
    {log : List Operation} (h : (cache.store category path payload).Stops disk log last) :
    (cache.placing category path ∈ log ∧
        last.standing (cache.artifactPath category path) [] = some (.file payload.toUTF8)) ∨
      (cache.placing category path ∉ log ∧ ∀ other another,
        last.standing (cache.artifactPath other another) =
          disk.standing (cache.artifactPath other another)) := by
  obtain ⟨mid, hmade, ⟨hmem, hreplaced⟩ | ⟨hmem, hlittered⟩⟩ := store_stops h
  · exact Or.inl ⟨hmem, hreplaced.standing.1⟩
  · refine Or.inr ⟨hmem, fun other another => ?_⟩
    have hplain := isPlain_artifactName other another
    exact (hlittered.standing hplain (temporaryName_ne category other path another)).trans
      (hmade.standing_of_noUp htree hup hplain)

/-- **A store is all or nothing for the artifact.** In a tree, and for a root without names `..`,
wherever storing is interrupted the artifact is what it was or the whole text, the latter just if it
has been put in its place; a store that fails leaves every artifact of the cache what it was, and
one that succeeds yields the path of the artifact, which is the whole text. -/
theorem store_allOrNothing (cache : Cache) (category : Namespace) (path payload : String)
    (disk : Disk) (htree : disk.IsTree) (hup : ".." ∉ pathNames cache.root) :
    (∀ log last, (cache.store category path payload).Stops disk log last →
      (cache.placing category path ∈ log ∧
          last.standing (cache.artifactPath category path) [] = some (.file payload.toUTF8)) ∨
        (cache.placing category path ∉ log ∧
          last.standing (cache.artifactPath category path) =
            disk.standing (cache.artifactPath category path))) ∧
    (∀ log reason last, (cache.store category path payload).Ends disk log (.error reason) last →
      ∀ other another, last.standing (cache.artifactPath other another) =
        disk.standing (cache.artifactPath other another)) ∧
    ∀ log target last, (cache.store category path payload).Ends disk log (.ok target) last →
      target = cache.artifactPath category path ∧
        last.standing target [] = some (.file payload.toUTF8) := by
  refine ⟨fun log last h => ?_, fun log reason last h => ?_, fun log target last h => ?_⟩
  · rcases store_stops_standing htree hup h with hplaced | ⟨hmem, hsame⟩
    · exact Or.inl hplaced
    · exact Or.inr ⟨hmem, hsame category path⟩
  · rcases store_ends h with ⟨-, hvalue⟩ | ⟨hmem, -⟩
    · cases hvalue
    · rcases store_stops_standing htree hup h.stops with ⟨hmem', -⟩ | ⟨-, hsame⟩
      · exact absurd hmem' hmem
      · exact hsame
  · rcases store_ends h with ⟨hmem, hvalue⟩ | ⟨-, reason, hvalue⟩
    · injection hvalue with hvalue
      subst hvalue
      rcases store_stops_standing htree hup h.stops with ⟨-, hwhole⟩ | ⟨hmem', -⟩
      · exact ⟨rfl, hwhole⟩
      · exact absurd hmem hmem'
    · cases hvalue

/-- A disk with a root `kb` that holds one artifact and a temporary file left over from another
time. -/
def usedDisk : Disk :=
  (((⟨[], []⟩ : Disk).put ["kb"] .directory).put ["kb", "a_impact.json"]
    (.file "1".toUTF8)).put ["kb", ".a_impact.json.tmp"] (.file "left over".toUTF8)

theorem isTree_usedDisk : usedDisk.IsTree := by
  have hroot := (isTree_empty []).put [] "kb" rfl (by nofun) .directory
  have hartifact := hroot.put ["kb"] "a_impact.json" rfl (by nofun) (.file "1".toUTF8)
  exact hartifact.put ["kb"] ".a_impact.json.tmp" rfl (by nofun) _

/-- On this disk every interruption leaves the old text or the new one. -/
theorem store_allOrNothing_usedDisk :
    usedDisk.IsTree ∧ ".." ∉ pathNames "kb" ∧
      ∀ log last, ((Cache.mk "kb").store .impact "a" "2").Stops usedDisk log last →
        last.standing "kb/a_impact.json" [] = some (.file "2".toUTF8) ∨
          last.standing "kb/a_impact.json" [] = some (.file "1".toUTF8) := by
  refine ⟨isTree_usedDisk, by decide, fun log last h => ?_⟩
  rcases (store_allOrNothing ⟨"kb"⟩ .impact "a" "2" usedDisk isTree_usedDisk (by decide)).1
    log last h with ⟨-, hwhole⟩ | ⟨-, hsame⟩
  · exact Or.inl hwhole
  · exact Or.inr (congrFun hsame [])

end FileLore.Cache
