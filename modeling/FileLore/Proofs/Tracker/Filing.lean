import FileLore.Proofs.Remote.Watched
import FileLore.Proofs.Source.MarkerScan
import FileLore.Proofs.Source.Reading
import FileLore.Tracker.Filing

/-!
# Each marker is filed once

Filing the markers of a file makes one call for each marker that is no note, in the
order of the lines, whatever becomes of the calls: one that is refused is not made
again, and those after it are made all the same. The number that is reported is the
number of calls that were taken (`issuesFromMarkers_onceEach`). A call has the title,
the body and the labels of the draft for its marker, and nothing else (`issueCall`).

The calls are fixed before the first of them is made, and the executor's answers
only go into the count; that is all that `countDelivered_watched` says, by induction
on the calls.
-/

namespace FileLore

/-! ## Calls -/

/-- The members of an issue, in the order of their names. -/
theorem IssueDraft.toJson_eq (draft : IssueDraft) : draft.toJson =
    .object [("body", .string draft.body), ("labels", .array (draft.labels.map .string)),
      ("title", .string draft.title)] := by
  have hbody : "body" < "title" := by decide
  have hlabels : ¬"labels" < "body" ∧ "labels" < "title" := by decide
  simp [toJson, Json.ofMembers, Json.Members.setAll, Json.Members.set, Json.ofTexts, hbody, hlabels]

/-- The members of a pull request, in the order of their names. -/
theorem PullRequest.toJson_eq (request : PullRequest) : request.toJson =
    .object [("base", .string request.base), ("body", .string request.body),
      ("draft", .bool request.isDraft), ("head", .string request.head),
      ("title", .string request.title)] := by
  have hbase : "base" < "body" := by decide
  have hbody : "body" < "title" := by decide
  have hhead : ¬"head" < "body" ∧ "head" < "title" := by decide
  have hdraft : ¬"draft" < "base" ∧ ¬"draft" < "body" ∧ "draft" < "head" := by decide
  simp [toJson, Json.ofMembers, Json.Members.setAll, Json.Members.set, hbase, hbody, hhead, hdraft]

namespace Tracker

/-- The call for an issue: its body, its labels and its title. -/
def issueCall (draft : IssueDraft) : Call :=
  ⟨"mcp__github__create_issue",
    .object [("body", .string draft.body), ("labels", .array (draft.labels.map .string)),
      ("title", .string draft.title)]⟩

/-- The call for a pull request: the branches, the texts, and whether it is a draft. -/
def requestCall (request : PullRequest) : Call :=
  ⟨"mcp__github__create_pull_request",
    .object [("base", .string request.base), ("body", .string request.body),
      ("draft", .bool request.isDraft), ("head", .string request.head),
      ("title", .string request.title)]⟩

theorem createIssue_eq : createIssue = issueCall :=
  funext fun draft => congrArg (Call.mk _) draft.toJson_eq

theorem createPullRequest_eq : createPullRequest = requestCall :=
  funext fun request => congrArg (Call.mk _) request.toJson_eq

variable {σ : Type}

/-! ## Issues -/

/-- Every one of some calls is made, once and in its turn, whatever the answers to those before it,
and the count is that of the calls that were taken. -/
theorem countDelivered_watched (executor : Executor σ) (calls : List Call) :
    ∀ (state : σ) (before : List Exchange), ∃ (made : List Exchange) (last : σ),
      made.map (·.call) = calls ∧
      countDelivered executor calls state = (made.countP (·.isTaken), last) ∧
      countDelivered executor.watched calls (state, before) =
        (made.countP (·.isTaken), (last, before ++ made)) := by
  induction calls with
  | nil => exact fun state before => ⟨[], state, rfl, rfl, by rw [List.append_nil]; rfl⟩
  | cons call rest ih =>
    intro state before
    obtain ⟨exchange, next, hcall, hfirst, hfirst'⟩ := executor.deliver_watched call state before
    obtain ⟨made, last, hmade, hrest, hrest'⟩ := ih next (before ++ [exchange])
    have hcount : (exchange :: made).countP (·.isTaken) =
        if exchange.isTaken then made.countP (·.isTaken) + 1 else made.countP (·.isTaken) := by
      cases h : exchange.isTaken <;> simp [h]
    refine ⟨exchange :: made, last, by rw [List.map_cons, hcall, hmade], ?_, ?_⟩
    · rw [countDelivered_cons, hfirst, hcount]
      dsimp only
      rw [hrest]
    · rw [countDelivered_cons, hfirst', hcount]
      dsimp only
      rw [hrest', List.append_assoc, List.singleton_append]

/-- Whether a call files an issue with the title, the body and the labels of the draft for a marker
that was found in a file. -/
def Files (file : String) (marker : Marker) (exchange : Exchange) : Prop :=
  exchange.call = issueCall (IssueDraft.ofMarker marker file)

/-- Calls for the drafts of markers are one call for each marker. -/
theorem forall₂_files {file source : String} {made : List Exchange}
    (h : made.map (·.call) = (markerDrafts source file).map createIssue) :
    List.Forall₂ (Files file) ((Marker.scan source).filter (·.kind != .note)) made := by
  rw [markerDrafts, createIssue_eq, List.map_map] at h
  have hall := List.forall₂_map_left_iff.mp <| List.forall₂_map_right_iff.mp <|
    List.forall₂_eq_eq_eq ▸ h.symm
  exact hall.imp fun marker exchange hcall => hcall.symm

/-- **Every marker that is no note is filed once and counted truthfully**: for each of them, line by
line, one call is made with its draft, whatever the executor answers; the number is that of the
calls that were taken. For a file that cannot be read no call is made. -/
theorem issuesFromMarkers_onceEach (executor : Executor σ) (state : σ) (disk : Disk)
    (file : String) :
    ∃ (made : List Exchange) (last : σ),
      issuesFromMarkers executor file ((readSource file).run disk).1 state =
        (made.countP (·.isTaken), last) ∧
      issuesFromMarkers executor.watched file ((readSource file).run disk).1 (state, []) =
        (made.countP (·.isTaken), (last, made)) ∧
      match disk.contentOf file with
      | .ok content =>
        List.Forall₂ (Files file)
          ((Marker.scan (Text.lossyText content)).filter (·.kind != .note)) made ∧
        (Marker.scan (Text.lossyText content)).Pairwise (·.line < ·.line)
      | .error _ => made = [] := by
  rw [readSource_run, sourceOn?]
  cases disk.contentOf file with
  | error reason => exact ⟨[], state, rfl, rfl, rfl⟩
  | ok content =>
    obtain ⟨made, last, hmade, hplain, hwatched⟩ := countDelivered_watched executor
      ((markerDrafts (Text.lossyText content) file).map createIssue) state []
    exact ⟨made, last, hplain, hwatched, forall₂_files hmade, Marker.scan_sorted _⟩

end Tracker

end FileLore
