import FileLore.Proofs.Store.Reading

/-!
# Each artifact gives its own lines

A summary is made of two artifacts that have nothing to do with each other. The
lines on imports and exports depend on the context artifact alone, the line on
dependent files on the impact artifact alone, whatever is wrong with the other of
the two (`contextLines_congr`, `impactLine_congr`); the summary is these lines one
after the other (`summary_lines`). Storing leaves every artifact with another name
alone (`store_stops_other`), so it changes no summary but that of the file that the
context or the count is stored for.

The last of this needs a root that is straight. If the root's path leads through a
missing directory and back by a name `..`, storing makes that directory, and with it
the artifacts that stood behind it come within reach.
-/

namespace FileLore.Cache

open Disk
open Text (joinedLines)

variable {cache : Cache} {category other : Namespace} {path another payload : String}
  {disk next last : Disk}

/-! ## Lines -/

/-- The lines on imports and exports in the summary of a file. -/
def contextLines (cache : Cache) (path : String) (disk : Disk) : List String :=
  ((loaded ((cache.loadContext path).run disk).1).map (·.summaryLines)).getD []

/-- The line on dependent files in the summary of a file, if there is one. -/
def impactLine (cache : Cache) (path : String) (disk : Disk) : List String :=
  ((loaded ((cache.loadImpactCount path).run disk).1).map impactLines).getD []

/-- The lines on imports and exports are those of the context that the text of the artifact gives,
and there are none if it gives no context. -/
theorem contextLines_eq (cache : Cache) (path : String) (disk : Disk) :
    cache.contextLines path disk =
      (((cache.artifactText? .context path disk).bind Context.ofText?).map fun context =>
        listLine "Imports: " context.imports ++ listLine "Exports: " context.exports).getD [] := by
  rw [contextLines, loaded_loadContext]
  rfl

/-- The line on dependent files is the one of the count that the text of the artifact gives. -/
theorem impactLine_eq (cache : Cache) (path : String) (disk : Disk) :
    cache.impactLine path disk =
      (((cache.artifactText? .impact path disk).bind fun text => loaded (impactCountOf text)).map
        impactLines).getD [] := by
  rw [impactLine, loaded_loadImpactCount]

theorem artifactText?_congr
    (h : next.standing (cache.artifactPath category path) [] =
      disk.standing (cache.artifactPath category path) []) :
    cache.artifactText? category path next = cache.artifactText? category path disk := by
  rw [artifactText?, h, artifactText?]

/-- The lines on imports and exports depend on the context artifact alone. -/
theorem contextLines_congr
    (h : next.standing (cache.artifactPath .context path) [] =
      disk.standing (cache.artifactPath .context path) []) :
    cache.contextLines path next = cache.contextLines path disk := by
  rw [contextLines_eq, artifactText?_congr h, contextLines_eq]

/-- The line on dependent files depends on the impact artifact alone. -/
theorem impactLine_congr
    (h : next.standing (cache.artifactPath .impact path) [] =
      disk.standing (cache.artifactPath .impact path) []) :
    cache.impactLine path next = cache.impactLine path disk := by
  rw [impactLine_eq, artifactText?_congr h, impactLine_eq]

/-- The summary of a file is its lines one after the other, if there are any. -/
theorem summary_lines (cache : Cache) (path : String) (disk : Disk) :
    (cache.summary? path).run disk =
      (if cache.contextLines path disk ++ cache.impactLine path disk = [] then none
        else some (joinedLines (cache.contextLines path disk ++ cache.impactLine path disk)),
        disk) := by
  rw [summary_run, FileLore.summary?]
  show (if (cache.contextLines path disk ++ cache.impactLine path disk).isEmpty then none
    else some (joinedLines (cache.contextLines path disk ++ cache.impactLine path disk)), disk) = _
  simp only [List.isEmpty_iff]

/-! ## Other artifacts -/

/-- Storing in a straight root of a tree leaves every other artifact alone, wherever it is
interrupted. -/
theorem store_stops_other (htree : disk.IsTree) (hstraight : disk.IsStraight cache.root)
    (hne : artifactName other another ≠ artifactName category path) {log : List Operation}
    (h : (cache.store category path payload).Stops disk log last) :
    last.standing (cache.artifactPath other another) =
      disk.standing (cache.artifactPath other another) := by
  have hplain := isPlain_artifactName other another
  have htemporary := temporaryName_ne category other path another
  obtain ⟨mid, hmade, hdone⟩ := store_stops h
  have hmid := hmade.standing_of_straight htree hstraight hplain
  rcases hdone with ⟨-, hreplaced⟩ | ⟨-, hlittered⟩
  · exact (hreplaced.standing.2 _ hplain htemporary hne).trans hmid
  · exact (hlittered.standing hplain htemporary).trans hmid

/-- Storing what is not the context or the count of a file does not change its summary. -/
theorem store_stops_summary (htree : disk.IsTree) (hstraight : disk.IsStraight cache.root)
    (hother : category = .violations ∨ category = .optimization ∨ key another ≠ key path)
    {log : List Operation} (h : (cache.store category another payload).Stops disk log last) :
    ((cache.summary? path).run last).1 = ((cache.summary? path).run disk).1 := by
  -- Neither of the two artifacts that the summary is made of is the one that is stored.
  have hleft (kept : Namespace) (hkept : kept = .context ∨ kept = .impact) :
      last.standing (cache.artifactPath kept path) [] =
        disk.standing (cache.artifactPath kept path) [] := by
    refine congrFun (store_stops_other htree hstraight (fun hname => ?_) h) []
    obtain ⟨rfl, hkey⟩ := artifactName_inj.mp hname
    rcases hother with rfl | rfl | hne
    · rcases hkept with hkept | hkept <;> cases hkept
    · rcases hkept with hkept | hkept <;> cases hkept
    · exact hne hkey.symm
  rw [summary_lines, contextLines_congr (hleft .context (Or.inl rfl)),
    impactLine_congr (hleft .impact (Or.inr rfl)), summary_lines]

/-- **Each artifact gives its own lines.** Between two disks with the same context artifact the
lines on imports and exports are the same, and between two disks with the same impact artifact the
line on dependent files is the same, whatever the rest of the disks holds. The summary is the former
followed by the latter, and there is none just if there are no lines; the former are the lines of
the context that is stored, if one is, and the latter is the line of the count. On a tree and in a
straight root, storing violations or metrics, or anything for a path with another key, changes no
summary. -/
theorem summary_degrades (cache : Cache) (path : String) :
    (∀ disk next : Disk, next.standing (cache.artifactPath .context path) [] =
        disk.standing (cache.artifactPath .context path) [] →
      cache.contextLines path next = cache.contextLines path disk) ∧
    (∀ disk next : Disk, next.standing (cache.artifactPath .impact path) [] =
        disk.standing (cache.artifactPath .impact path) [] →
      cache.impactLine path next = cache.impactLine path disk) ∧
    (∀ disk, (cache.summary? path).run disk =
        (if cache.contextLines path disk ++ cache.impactLine path disk = [] then none
          else some (joinedLines (cache.contextLines path disk ++ cache.impactLine path disk)),
          disk) ∧
      cache.contextLines path disk =
        (((cache.artifactText? .context path disk).bind Context.ofText?).map fun context =>
          listLine "Imports: " context.imports ++ listLine "Exports: " context.exports).getD [] ∧
      cache.impactLine path disk =
        (((cache.artifactText? .impact path disk).bind fun text =>
          loaded (impactCountOf text)).map impactLines).getD []) ∧
    ∀ disk : Disk, disk.IsTree → disk.IsStraight cache.root →
      ∀ category another, category = .violations ∨ category = .optimization ∨
          key another ≠ key path →
        ∀ payload log last, (cache.store category another payload).Stops disk log last →
          ((cache.summary? path).run last).1 = ((cache.summary? path).run disk).1 := by
  refine ⟨fun disk next h => contextLines_congr h, fun disk next h => impactLine_congr h,
    fun disk => ⟨?_, ?_, ?_⟩, ?_⟩
  · exact summary_lines cache path disk
  · exact contextLines_eq cache path disk
  · exact impactLine_eq cache path disk
  · intro disk htree hstraight category another hother payload log last h
    exact store_stops_summary htree hstraight hother h

/-- A disk with a directory that holds a single file. -/
def singleFile (directory name content : String) : Disk :=
  ((⟨[], []⟩ : Disk).put [directory] .directory).put [directory, name] (.file content.toUTF8)

theorem isTree_singleFile (directory name content : String) :
    (singleFile directory name content).IsTree := by
  have hdirectory := (isTree_empty []).put [] directory rfl (by nofun) .directory
  have hat : ((⟨[], []⟩ : Disk).put [directory] .directory).at? [directory] = some .directory :=
    at?_put_self (by simp) _ _
  refine hdirectory.put [directory] name hat ?_ _
  rw [at?_put_ne (by simp)]
  nofun

/-- A count that is no JSON takes nothing from the imports, and neither does storing violations. -/
theorem summary_degrades_kb :
    let kept := singleFile "kb" "x_context.json" "\x7b\"imports\":[\"os\"]\x7d"
    contextLines ⟨"kb"⟩ "x" (kept.put ["kb", "x_impact.json"] (.file "\x7b".toUTF8)) =
        ["Imports: os"] ∧
      ∃ log last, ((Cache.mk "kb").store .violations "x" "[]").Stops kept log last ∧
        (((Cache.mk "kb").summary? "x").run last).1 = some "Imports: os" := by
  intro kept
  obtain ⟨hcontext, -, -, hstore⟩ := summary_degrades ⟨"kb"⟩ "x"
  have htree : kept.IsTree := isTree_singleFile "kb" "x_context.json" _
  have hfollow : kept.follow "kb" = .ok ["kb"] := rfl
  obtain ⟨log, h⟩ := FileTask.ends_run ((Cache.mk "kb").store .violations "x" "[]") kept
  have hsame : (kept.put ["kb", "x_impact.json"] (.file "\x7b".toUTF8)).standing
      "kb/x_context.json" [] = kept.standing "kb/x_context.json" [] := rfl
  refine ⟨(hcontext kept _ hsame).trans (by decide +kernel), log, _, h.stops, ?_⟩
  rw [hstore kept htree (isStraight_of_follow hfollow) .violations "x" (Or.inl rfl) _ _ _ h.stops]
  decide +kernel

/-- In a root that leads through a missing directory and back, storing violations brings the context
of another file to light. -/
theorem not_summary_of_crooked_root :
    ¬∀ (cache : Cache) (disk last : Disk) (path another payload target : String)
      (log : List Operation), disk.IsTree →
        (cache.store .violations another payload).Ends disk log (.ok target) last →
          ((cache.summary? path).run last).1 = ((cache.summary? path).run disk).1 := by
  intro h
  let kept := singleFile "b" "x_context.json" "\x7b\"imports\":[\"os\"]\x7d"
  obtain ⟨log, hends⟩ := FileTask.ends_run ((Cache.mk "a/../b").store .violations "y" "[]") kept
  have hstored : (((Cache.mk "a/../b").store .violations "y" "[]").run kept).1 =
      .ok "a/../b/y_violations.json" := by
    decide +kernel
  rw [hstored] at hends
  have hsame := h _ _ _ "x" _ _ _ _ (isTree_singleFile "b" "x_context.json" _) hends
  exact absurd hsame (by decide +kernel)

end FileLore.Cache
