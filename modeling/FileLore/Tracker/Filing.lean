import FileLore.Remote.Executor
import FileLore.Tracker.CriticalPath
import FileLore.Tracker.Issue
import FileLore.Tracker.PullRequest

/-!
# Filing

The calls that file issues and open pull requests. Every draft is tried once:
one that is refused is not tried again and does not stop those after it.
-/

namespace FileLore.Tracker

/-- The call that files an issue. -/
def createIssue (draft : IssueDraft) : Call :=
  ⟨"mcp__github__create_issue", draft.toJson⟩

/-- The call that opens a pull request. -/
def createPullRequest (request : PullRequest) : Call :=
  ⟨"mcp__github__create_pull_request", request.toJson⟩

/-- The issues for the markers of a source text. Notes are for information only and get none. -/
def markerDrafts (source file : String) : List IssueDraft :=
  ((Marker.scan source).filter (·.kind != .note)).map (IssueDraft.ofMarker · file)

variable {σ : Type}

/-- Makes the calls one after the other and counts those that are taken. -/
def countDelivered (executor : Executor σ) : List Call → StateM σ Nat
  | [] => return 0
  | call :: rest => do
    let taken ← executor.deliver call
    let others ← countDelivered executor rest
    return if taken then others + 1 else others

/-- The first call is made before the others and adds one to their count if it is taken. -/
theorem countDelivered_cons (executor : Executor σ) (call : Call) (rest : List Call) (state : σ) :
    countDelivered executor (call :: rest) state =
      let first := executor.deliver call state
      let others := countDelivered executor rest first.2
      (if first.1 then others.1 + 1 else others.1, others.2) :=
  rfl

/-- Files an issue for every marker in a file with this content, and says how many were filed. A
file that cannot be read has none. -/
def issuesFromMarkers (executor : Executor σ) (file : String) (source? : Option String) :
    StateM σ Nat :=
  match source? with
  | none => return 0
  | some source => countDelivered executor ((markerDrafts source file).map createIssue)

/-- Files a notice if the changed file is critical, and says whether one was filed. -/
def notifyCriticalChange (executor : Executor σ) (project path changeType : String) :
    StateM σ Bool :=
  if isCriticalPath path then
    executor.deliver (createIssue (IssueDraft.ofCriticalChange path changeType project))
  else return false

/-- Opens a pull request for a branch with enough commits, and says whether one was opened. -/
def createFeatureRequest (executor : Executor σ) (summary : BranchSummary) : StateM σ Bool :=
  match PullRequest.ofSummary? summary with
  | some request => executor.deliver (createPullRequest request)
  | none => return false

end FileLore.Tracker
