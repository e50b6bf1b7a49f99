import FileLore.Proofs.Store.RoundTrip
import FileLore.Proofs.Store.Summary
import FileLore.Proofs.Text.Split

/-!
# Summaries can be read

What a file imports and exports comes as two texts with white space between the
items. Once it has been stored, both lists of items can be read off the summary of
the file (`storeLists_listed`): each stands on a line of its own behind a label, with
a comma and a blank between the items. This works whatever the items are made of,
commas and labels included, because no item holds white space: neither a line nor an
item can end too early.
-/

namespace FileLore

open Text

/-! ## Reading a summary -/

/-- The items that are separated by white space in a text. -/
def itemsOf (text : String) : List String :=
  ((text.toList.splitOnP isBlank).filter (!·.isEmpty)).map String.ofList

/-- The items that a summary lists behind a label: those on the line that begins with the label, and
none if no line does. -/
def listed? (label summary : String) : Option (List String) :=
  match (splitBy ['\n'] summary.toList).filterMap (afterStart? label.toList) with
  | [] => some []
  | [list] => some ((splitBy [',', ' '] list).map String.ofList)
  | _ => none

theorem itemsOf_eq (text : String) : itemsOf text = (words text.toList).map String.ofList := by
  rw [itemsOf, words_eq]

theorem isBlank_of_mem_itemsOf {text item : String} (h : item ∈ itemsOf text) {c : Char}
    (hc : c ∈ item.toList) : isBlank c = false := by
  rw [itemsOf_eq] at h
  obtain ⟨word, hword, rfl⟩ := List.mem_map.mp h
  rw [String.toList_ofList] at hc
  exact isBlank_of_mem_words hword hc

theorem itemsOf_eq_nil_iff {text : String} :
    itemsOf text = [] ↔ ∀ c ∈ text.toList, isBlank c = true := by
  rw [itemsOf_eq, List.map_eq_nil_iff, words_eq_nil_iff]

theorem Context.ofLists_lists (file imports exports timestamp : String) :
    (ofLists file imports exports timestamp).imports = itemsOf imports ∧
      (ofLists file imports exports timestamp).exports = itemsOf exports := by
  rw [itemsOf_eq, itemsOf_eq]
  exact ⟨rfl, rfl⟩

/-! ## Lines with lists -/

/-- Whether no text of a list holds white space. -/
def NoBlanks (items : List String) : Prop := ∀ item ∈ items, ∀ c ∈ item.toList, isBlank c = false

theorem NoBlanks.notMem {items : List String} (h : NoBlanks items) {c : Char}
    (hc : isBlank c = true) : ∀ item ∈ items.map (·.toList), c ∉ item := by
  intro item hitem hmem
  obtain ⟨text, htext, rfl⟩ := List.mem_map.mp hitem
  rw [h text htext c hmem] at hc
  cases hc

/-- The items of a line with a list are read off what stands behind its label. -/
theorem splitBy_joined {items : List String} (hne : items ≠ []) (h : NoBlanks items) :
    (splitBy [',', ' '] (joined ", " items).toList).map String.ofList = items := by
  have hsplit : splitBy [',', ' '] (joinWith [',', ' '] (items.map (·.toList))) =
      items.map (·.toList) :=
    splitBy_joinWith [','] (by decide) (by simpa using hne) (h.notMem (by decide))
  show (splitBy [',', ' '] (String.ofList (joinWith [',', ' '] (items.map (·.toList)))).toList).map
    String.ofList = items
  rw [String.toList_ofList, hsplit]
  simp

/-- The text of a line with a list. -/
theorem listLine_toList {label : String} {items : List String} (hne : items ≠ []) :
    (listLine label items).map (·.toList) = [label.toList ++ (joined ", " items).toList] := by
  rw [listLine, if_neg (by simpa using hne)]
  simp

theorem notMem_listLine {label : String} {items : List String} (hlabel : '\n' ∉ label.toList)
    (h : NoBlanks items) : ∀ line ∈ (listLine label items).map (·.toList), '\n' ∉ line := by
  intro line hline
  by_cases hnil : items = []
  · subst hnil
    cases hline
  · rw [listLine_toList hnil, List.mem_singleton] at hline
    subst hline
    have hlist : '\n' ∉ (joined ", " items).toList := by
      rw [joined, String.toList_ofList]
      exact notMem_joinWith (by decide) (h.notMem (by decide))
    simp [hlabel, hlist]

/-- The lines of a text that is made of lines. -/
theorem splitBy_joinedLines {lines : List String} (hne : lines ≠ [])
    (h : ∀ line ∈ lines.map (·.toList), '\n' ∉ line) :
    splitBy ['\n'] (joinedLines lines).toList = lines.map (·.toList) := by
  have hsplit : splitBy ['\n'] (joinWith ['\n'] (lines.map (·.toList))) = lines.map (·.toList) :=
    splitBy_joinWith [] (by decide) (by simpa using hne) h
  rw [joinedLines, joined, String.toList_ofList]
  exact hsplit

/-- What stands behind a label: the list on its own line, and nothing on the other. -/
theorem filterMap_listLine_self (label : String) (items : List String) :
    ((listLine label items).map (·.toList)).filterMap (afterStart? label.toList) =
      if items = [] then [] else [(joined ", " items).toList] := by
  by_cases hnil : items = []
  · rw [if_pos hnil, hnil]
    rfl
  · rw [if_neg hnil, listLine_toList hnil, List.filterMap_cons, afterStart?_append]
    rfl

theorem filterMap_listLine_other {label other : String}
    (hother : ∀ rest, afterStart? label.toList (other.toList ++ rest) = none)
    (items : List String) :
    ((listLine other items).map (·.toList)).filterMap (afterStart? label.toList) = [] := by
  by_cases hnil : items = []
  · rw [hnil]
    rfl
  · rw [listLine_toList hnil, List.filterMap_cons, hother]
    rfl

theorem lines_eq_nil_iff {imports exports : List String} :
    listLine "Imports: " imports ++ listLine "Exports: " exports = [] ↔
      imports = [] ∧ exports = [] := by
  cases imports <;> cases exports <;> simp [listLine]

/-- **Both lists are read off the lines of a summary.** -/
theorem listed?_lines {imports exports : List String} (himports : NoBlanks imports)
    (hexports : NoBlanks exports)
    (hne : listLine "Imports: " imports ++ listLine "Exports: " exports ≠ []) :
    listed? "Imports: " (joinedLines (listLine "Imports: " imports ++
        listLine "Exports: " exports)) = some imports ∧
      listed? "Exports: " (joinedLines (listLine "Imports: " imports ++
        listLine "Exports: " exports)) = some exports := by
  -- No line holds a line feed, so the text falls apart into the lines it was made of.
  have hlines := splitBy_joinedLines hne fun line hline => by
    rw [List.map_append] at hline
    rcases List.mem_append.mp hline with h | h
    · exact notMem_listLine (by decide) himports line h
    · exact notMem_listLine (by decide) hexports line h
  rw [List.map_append] at hlines
  constructor
  · rw [listed?, hlines, List.filterMap_append, filterMap_listLine_self,
      filterMap_listLine_other (fun _ => rfl), List.append_nil]
    by_cases hnil : imports = []
    · rw [if_pos hnil, hnil]
    · rw [if_neg hnil]
      exact congrArg some (splitBy_joined hnil himports)
  · rw [listed?, hlines, List.filterMap_append, filterMap_listLine_self,
      filterMap_listLine_other (fun _ => rfl), List.nil_append]
    by_cases hnil : exports = []
    · rw [if_pos hnil, hnil]
    · rw [if_neg hnil]
      exact congrArg some (splitBy_joined hnil hexports)

/-! ## Stored lists -/

namespace Cache

open Disk

variable {cache : Cache} {path imports exports target : String} {now : Int} {disk last : Disk}
  {log : List Operation}

/-- Lists are stored as the context that they make up. -/
theorem storeLists_ends (h : (cache.storeLists path imports exports now).Ends disk log true last) :
    ∃ target log', (cache.storeContext path
      (Context.ofLists path imports exports (timestamp now))).Ends disk log' (.ok target) last :=
  ends_of_isStored h

theorem impactLine_of_absent (h : disk.standing (cache.artifactPath .impact path) [] = none) :
    cache.impactLine path disk = [] := by
  rw [impactLine_eq, artifactText?, h]
  rfl

theorem contextLines_of_store {context : Context}
    (h : (cache.storeContext path context).Ends disk log (.ok target) last) :
    cache.contextLines path last = context.summaryLines := by
  rw [contextLines, loadContext_of_store h]
  rfl

/-- **Lists that have been stored can be read off the summary.** The impact artifact has to be
absent when the summary is made; that follows if it was absent before, the disk being a tree and the
root straight. Then there is no summary just if both texts are all white space, and from any summary
both lists of items are read, in order and with all that occur more than once. -/
theorem storeLists_listed (cache : Cache) (path imports exports : String) (now : Int)
    (disk last : Disk) (log : List Operation)
    (hstored : (cache.storeLists path imports exports now).Ends disk log true last)
    (habsent : last.standing (cache.artifactPath .impact path) [] = none ∨
      disk.IsTree ∧ disk.IsStraight cache.root ∧
        disk.standing (cache.artifactPath .impact path) [] = none) :
    ∃ summary, (cache.summary? path).run last = (summary, last) ∧
      (summary = none ↔ (∀ c ∈ imports.toList, isBlank c = true) ∧
        ∀ c ∈ exports.toList, isBlank c = true) ∧
      ∀ text, summary = some text → listed? "Imports: " text = some (itemsOf imports) ∧
        listed? "Exports: " text = some (itemsOf exports) := by
  obtain ⟨target, log', hstore⟩ := storeLists_ends hstored
  have hnone : last.standing (cache.artifactPath .impact path) [] = none := by
    rcases habsent with hafter | ⟨htree, hstraight, hbefore⟩
    · exact hafter
    · -- The context has another name, so storing it leaves the impact artifact absent.
      have hname : artifactName .impact path ≠ artifactName .context path := fun h => by
        cases (artifactName_inj.mp h).1
      rw [store_stops_other htree hstraight hname hstore.stops, hbefore]
  have hlines : cache.contextLines path last ++ cache.impactLine path last =
      listLine "Imports: " (itemsOf imports) ++ listLine "Exports: " (itemsOf exports) := by
    obtain ⟨himports, hexports⟩ := Context.ofLists_lists path imports exports (timestamp now)
    rw [contextLines_of_store hstore, impactLine_of_absent hnone, List.append_nil,
      Context.summaryLines, himports, hexports]
  refine ⟨_, summary_lines cache path last, ?_, fun text htext => ?_⟩
  · rw [hlines, ← itemsOf_eq_nil_iff, ← itemsOf_eq_nil_iff, ← lines_eq_nil_iff]
    split
    next hnil => simp [hnil]
    next hsome => simp [hsome]
  · rw [hlines] at htext
    split at htext
    next => cases htext
    next hsome =>
      cases htext
      exact listed?_lines (fun item hitem c hc => isBlank_of_mem_itemsOf hitem hc)
        (fun item hitem c hc => isBlank_of_mem_itemsOf hitem hc) hsome

/-- Items with commas and with a label in them are read off the summary. -/
theorem storeLists_listed_kb :
    ∃ log last text,
      ((Cache.mk "kb").storeLists "a" " a,\tb\na," "Imports:" 0).Ends ⟨[], []⟩ log true last ∧
        ((Cache.mk "kb").summary? "a").run last = (some text, last) ∧
        listed? "Imports: " text = some ["a,", "b", "a,"] ∧
        listed? "Exports: " text = some ["Imports:"] := by
  obtain ⟨log, hends⟩ := FileTask.ends_run
    ((Cache.mk "kb").storeLists "a" " a,\tb\na," "Imports:" 0) ⟨[], []⟩
  have hstored : (((Cache.mk "kb").storeLists "a" " a,\tb\na," "Imports:" 0).run ⟨[], []⟩).1 =
      true := by
    decide +kernel
  rw [hstored] at hends
  obtain ⟨summary, hrun, hnone, hlisted⟩ := storeLists_listed ⟨"kb"⟩ "a" " a,\tb\na," "Imports:" 0
    _ _ _ hends (Or.inr ⟨isTree_empty [], isStraight_of_noUp (by decide), rfl⟩)
  cases summary with
  | none =>
    have hblank := (hnone.mp rfl).2 'I' (List.mem_cons_self ..)
    cases hblank
  | some text =>
    obtain ⟨himports, hexports⟩ := hlisted text rfl
    refine ⟨log, _, text, hends, hrun, himports.trans ?_, hexports.trans ?_⟩ <;> decide +kernel

/-- In a root that leads through a missing directory and back, an impact artifact that cannot be
found before lists are stored stands there afterwards. -/
theorem not_storeLists_listed_of_crooked_root :
    ¬∀ (cache : Cache) (path imports exports : String) (now : Int) (disk last : Disk)
      (log : List Operation), disk.IsTree →
        ((cache.read .impact path).run disk).1 = .ok none →
        (cache.storeLists path imports exports now).Ends disk log true last →
        (((cache.summary? path).run last).1 = none ↔
          (∀ c ∈ imports.toList, isBlank c = true) ∧ ∀ c ∈ exports.toList, isBlank c = true) := by
  intro h
  let counted := singleFile "b" "x_impact.json" "\x7b\"count\":3\x7d"
  obtain ⟨log, hends⟩ :=
    FileTask.ends_run ((Cache.mk "a/../b").storeLists "x" "" "" 0) counted
  have hstored : (((Cache.mk "a/../b").storeLists "x" "" "" 0).run counted).1 = true := by
    decide +kernel
  rw [hstored] at hends
  have habsent : (((Cache.mk "a/../b").read .impact "x").run counted).1 = .ok none := by
    decide +kernel
  have hiff := h _ _ _ _ _ _ _ _ (isTree_singleFile "b" "x_impact.json" _) habsent hends
  exact absurd (hiff.mpr ⟨by simp, by simp⟩) (by decide +kernel)

end Cache

end FileLore
