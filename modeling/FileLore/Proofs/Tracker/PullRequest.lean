import FileLore.Proofs.Text.Document
import FileLore.Tracker.PullRequest

/-!
# Every commit is accounted for

A branch with three commits or more gets a pull request, and what stands in its body under
the heading for the commits accounts for all of them: a line for each of the first five,
and the number of the others on one more line if there are any (`ofSummary_accounts`).

The lines can be told apart because neither the name of the branch nor a commit has a line
feed, and the list ends where it should because no line of it is blank: each begins with a
hyphen.
-/

namespace FileLore.PullRequest

open Text

variable {summary : BranchSummary} {request : PullRequest}

/-- The heading over the commits of a branch. -/
def commitHeading (count : Nat) : String := "## Commits (" ++ toString count ++ ")"

/-- The line for a number of commits that are not listed. -/
def othersLine (count : Nat) : String := "- ... and " ++ toString count ++ " more commits"

theorem commitLines_eq (summary : BranchSummary) : commitLines summary =
    (summary.commits.take 5).map ("- " ++ ·) ++
      if 5 < summary.commitCount then [othersLine (summary.commitCount - 5)] else [] := by
  rw [commitLines, decimal_eq]
  rfl

/-- Each line for commits begins with a hyphen and goes on with a commit or a number. -/
theorem commitLines_form {line : String} (h : line ∈ commitLines summary) :
    (∃ commit ∈ summary.commits, line = "- " ++ commit) ∨ ∃ count, line = othersLine count := by
  rw [commitLines_eq, List.mem_append] at h
  rcases h with h | h
  · obtain ⟨commit, hcommit, rfl⟩ := List.mem_map.mp h
    exact .inl ⟨commit, List.mem_of_mem_take hcommit, rfl⟩
  · split at h
    · exact .inr ⟨_, List.mem_singleton.mp h⟩
    · cases h

theorem notMem_commitLines (hcommits : ∀ commit ∈ summary.commits, '\n' ∉ commit.toList) :
    ∀ line ∈ commitLines summary, '\n' ∉ line.toList := by
  intro line hline
  rcases commitLines_form hline with ⟨commit, hcommit, rfl⟩ | ⟨count, rfl⟩
  · simpa using hcommits commit hcommit
  · simpa [othersLine] using notMem_toString count

theorem isBlankLine_commitLines : ∀ line ∈ commitLines summary, isBlankLine line = false := by
  have hhyphen : isBlank '-' = false := by decide
  intro line hline
  rcases commitLines_form hline with ⟨commit, hcommit, rfl⟩ | ⟨count, rfl⟩
  · simp [isBlankLine, hhyphen]
  · simp [isBlankLine, othersLine, hhyphen]

theorem commitLines_ne_nil (h : summary.commits ≠ []) : commitLines summary ≠ [] := by
  rw [commitLines_eq]
  simp [h]

/-- A branch gets a pull request just if it has enough commits. -/
theorem ofSummary?_eq_none_iff : ofSummary? summary = none ↔ ¬3 ≤ summary.commitCount := by
  rw [ofSummary?, leastCommits]
  split_ifs with h
  · exact iff_of_true rfl (Nat.not_le.mpr h)
  · exact iff_of_false nofun (not_not.mpr (Nat.not_lt.mp h))

/-- The lines of the body: the heading stands behind three others, and a blank line behind the lines
for the commits. -/
theorem linesOf_body (hrequest : ofSummary? summary = some request)
    (hbranch : '\n' ∉ summary.branch.toList)
    (hcommits : ∀ commit ∈ summary.commits, '\n' ∉ commit.toList) (hne : summary.commits ≠ []) :
    linesOf request.body =
      ["## Summary", "Draft pull request for feature branch `" ++ summary.branch ++ "`.", ""] ++
        commitHeading summary.commitCount :: (commitLines summary ++ "" ::
          ["---", "*This pull request was created automatically by a change hook.*"]) := by
  have hlist : linesOf (joinedLines (commitLines summary)) = commitLines summary := by
    rw [linesOf_joinedLines (commitLines_ne_nil hne), flatMap_linesOf (notMem_commitLines hcommits)]
  have hintroduction :
      '\n' ∉ ("Draft pull request for feature branch `" ++ summary.branch ++ "`.").toList := by
    simpa using hbranch
  have hheading : '\n' ∉ (commitHeading summary.commitCount).toList := by
    simpa [commitHeading] using notMem_toString summary.commitCount
  rw [ofSummary?] at hrequest
  split at hrequest
  · cases hrequest
  · obtain rfl := Option.some.inj hrequest
    rw [decimal_eq, ← commitHeading, linesOf_joinedLines (List.cons_ne_nil _ _)]
    simp only [List.flatMap_cons, List.flatMap_nil, hlist, linesOf_of_notMem hintroduction,
      linesOf_of_notMem hheading]
    rfl

/-- **The body accounts for every commit.** A branch has no pull request just if it has fewer than
three commits. Otherwise what stands between the heading over the commits and the next blank line
is a line for each of the first five commits, in their order, and one with the number of the others
if there are more than five; head and base are those of the branch. -/
theorem ofSummary_accounts (hbranch : '\n' ∉ summary.branch.toList)
    (hcommits : ∀ commit ∈ summary.commits, '\n' ∉ commit.toList)
    (hcount : summary.commits.length = summary.commitCount) :
    (ofSummary? summary = none ↔ summary.commitCount < 3) ∧
    ∀ request, ofSummary? summary = some request →
      (∃ others, min 5 summary.commitCount + others = summary.commitCount ∧
        linesUnder (commitHeading summary.commitCount) request.body =
          (summary.commits.take (min 5 summary.commitCount)).map ("- " ++ ·) ++
            if 5 < summary.commitCount then [othersLine others] else []) ∧
      request.head = summary.branch ∧ request.base = summary.base := by
  refine ⟨by rw [ofSummary?_eq_none_iff, Nat.not_le], fun request hrequest => ⟨?_, ?_⟩⟩
  · have henough : 3 ≤ summary.commitCount := by
      by_contra hfew
      rw [ofSummary?_eq_none_iff.mpr hfew] at hrequest
      cases hrequest
    have hne : summary.commits ≠ [] := List.ne_nil_of_length_pos (by omega)
    have hheading : commitHeading summary.commitCount ∉ ["## Summary",
        "Draft pull request for feature branch `" ++ summary.branch ++ "`.", ""] := by
      simp [commitHeading, ← String.toList_inj]
    refine ⟨summary.commitCount - 5, by omega, ?_⟩
    rw [linesUnder_eq (linesOf_body hrequest hbranch hcommits hne) hheading isBlankLine_commitLines
      rfl, commitLines_eq, ← hcount, ← List.take_eq_take_min]
  · rw [ofSummary?] at hrequest
    split at hrequest
    · cases hrequest
    · obtain rfl := Option.some.inj hrequest
      exact ⟨rfl, rfl⟩

/-- A branch with six commits, one without a title and one that is titled like the heading. -/
def sixCommits : BranchSummary :=
  { branch := "fix-it"
    base := "main"
    commitCount := 6
    commits := ["f", "", "## Commits (6)", "c\r", "- ...", "a"] }

/-- The first five commits of six are listed, whatever their titles are, and the last is counted. -/
theorem ofSummary_accounts_sixCommits :
    ∃ request, ofSummary? sixCommits = some request ∧
      linesUnder (commitHeading 6) request.body =
        ["- f", "- ", "- ## Commits (6)", "- c\r", "- - ...", "- ... and 1 more commits"] ∧
      request.head = "fix-it" ∧ request.base = "main" := by
  obtain ⟨-, hbody⟩ := @ofSummary_accounts sixCommits (by decide) (by decide) rfl
  obtain ⟨request, hrequest⟩ : ∃ request, ofSummary? sixCommits = some request := ⟨_, rfl⟩
  obtain ⟨⟨others, hothers, hlines⟩, hends⟩ := hbody request hrequest
  obtain rfl : others = 1 := by
    have hcount : sixCommits.commitCount = 6 := rfl
    omega
  exact ⟨request, hrequest, hlines, hends⟩

end FileLore.PullRequest
