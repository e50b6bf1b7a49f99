import FileLore.CommandLine.Run
import FileLore.Proofs.CommandLine.VersionControl
import FileLore.Proofs.Remote.Simulated
import FileLore.Proofs.Source.Reading
import FileLore.Proofs.Tracker.Filing
import FileLore.Proofs.Tracker.PullRequest

/-!
# Calls of the issue tracker

The three commands for the issue tracker draft calls: one for each marker that is no
note, one for a change of a critical file, one for a branch with enough commits. The
drafts are sent, all of them and nothing else, if there is a token and both parts of
the repository's name are known, and none of them is sent otherwise; what a command
prints tells how many were sent (`tracker_sends`).

A draft is sent as it is. The owner and the name of the repository come with it, and
since no draft has members of these names, nothing of the draft is lost
(`carries_ofMembers`).
-/

namespace FileLore.Settings

variable {settings : Settings} {surroundings : Surroundings} {owner repository : String}

/-! ## Credentials -/

/-- Whether a part of the repository's name is the one that is set or, if none is, that of the
repository to which the address leads that version control has for the remote called origin. -/
def IsPart (set? : Option String) (part : Repository → String) (surroundings : Surroundings)
    (value : String) : Prop :=
  set? = some value ∨ set? = none ∧ ∃ address origin,
    surroundings.Prints ["remote", "get-url", "origin"] address ∧
      Repository.LeadsTo address origin ∧ part origin = value

/-- Whether there is a token, not empty, in the variable that the settings name, and the repository
is known by its owner and its name. -/
structure HasCredentials (settings : Settings) (surroundings : Surroundings)
    (owner repository : String) : Prop where
  token : ∃ token,
    surroundings.environment.lookup settings.config.tokenVariable = some token ∧ token ≠ ""
  owner : IsPart settings.config.owner (·.owner) surroundings owner
  repository : IsPart settings.config.repository (·.name) surroundings repository

theorem isPart_iff {set? : Option String} {part : Repository → String} {value : String} :
    IsPart set? part surroundings value ↔
      (set? <|> (originRepository? surroundings).map part) = some value := by
  have horigin : (∃ address origin, surroundings.Prints ["remote", "get-url", "origin"] address ∧
      Repository.LeadsTo address origin ∧ part origin = value) ↔
        (originRepository? surroundings).map part = some value := by
    simp only [Option.map_eq_some_iff, originRepository?_eq_some_iff]
    constructor
    · rintro ⟨address, origin, hprints, hleads, hpart⟩
      exact ⟨origin, ⟨address, hprints, hleads⟩, hpart⟩
    · rintro ⟨origin, ⟨address, hprints, hleads⟩, hpart⟩
      exact ⟨address, origin, hprints, hleads, hpart⟩
  rw [IsPart, horigin]
  cases set? <;> simp

/-- The remote is asked about only if a part is not set, but that makes no difference. -/
theorem coordinates_eq (settings : Settings) (surroundings : Surroundings) :
    settings.coordinates surroundings =
      (settings.config.owner <|> (originRepository? surroundings).map (·.owner),
        settings.config.repository <|> (originRepository? surroundings).map (·.name)) := by
  rw [coordinates]
  cases settings.config.owner <;> cases settings.config.repository <;> rfl

theorem withText_service (name : String) (value : Option String) (simulated : Simulated) :
    (withText name value simulated).service = simulated.service := by
  cases value <;> rfl

theorem withText_availability (name : String) (value : Option String) (simulated : Simulated) :
    (withText name value simulated).availability = simulated.availability := by
  cases value <;> rfl

theorem tracker_service (settings : Settings) (surroundings : Surroundings) :
    (settings.tracker surroundings).service = "GitHub" :=
  (withText_service ..).trans (withText_service ..)

theorem tracker_availability (settings : Settings) (surroundings : Surroundings) :
    (settings.tracker surroundings).availability =
      .credentials (surroundings.valueOf? settings.config.tokenVariable)
        (settings.coordinates surroundings).1 (settings.coordinates surroundings).2 :=
  (withText_availability ..).trans (withText_availability ..)

/-- The issue tracker counts as reachable just if there are credentials. -/
theorem tracker_holds_iff :
    (settings.tracker surroundings).availability.holds surroundings.network = true ↔
      ∃ owner repository, settings.HasCredentials surroundings owner repository := by
  rw [tracker_availability, coordinates_eq, Availability.holds]
  simp only [Bool.and_eq_true, Option.isSome_iff_exists, Option.any_eq_true, Bool.not_eq_true',
    String.isEmpty_eq_false_iff, ← isPart_iff]
  constructor
  · intro ⟨⟨htoken, owner, howner⟩, repository, hrepository⟩
    exact ⟨owner, repository, htoken, howner, hrepository⟩
  · intro ⟨owner, repository, htoken, howner, hrepository⟩
    exact ⟨⟨htoken, owner, howner⟩, repository, hrepository⟩

/-- The issue tracker's own parameters are the parts of the repository's name. -/
theorem tracker_extra (h : settings.HasCredentials surroundings owner repository) :
    (settings.tracker surroundings).extra =
      [("owner", .string owner), ("repo", .string repository)] := by
  have howner := isPart_iff.mp h.owner
  have hrepository := isPart_iff.mp h.repository
  rw [tracker, coordinates_eq, howner, hrepository]
  rfl

/-! ## Drafts -/

/-- Whether a call that is sent is a draft as it is, together with the owner and the name of the
repository. -/
structure Carries (owner repository : String) (draft : Call) (sent : SentCall) : Prop where
  service : sent.service = "GitHub"
  tool : sent.tool = draft.tool
  /-- The draft leaves room for the parts of the repository's name. -/
  free : draft.parameters.member? "owner" = none ∧ draft.parameters.member? "repo" = none
  members : ∀ name, sent.parameters.lookup name =
    if name = "owner" then some (.string owner)
    else if name = "repo" then some (.string repository)
    else draft.parameters.member? name
  /-- The names stand in their order, each of them once. -/
  sorted : (sent.parameters.map (·.1)).Pairwise (· < ·)

/-- An object without members of these names is sent whole. -/
theorem carries_ofMembers (owner repository tool : String) {members : Json.Members}
    (howner : members.reverse.lookup "owner" = none)
    (hrepository : members.reverse.lookup "repo" = none) :
    Carries owner repository ⟨tool, Json.ofMembers members⟩
      ⟨"GitHub", tool,
        Json.Members.setAll [("owner", .string owner), ("repo", .string repository)]
          (Json.Members.setAll members [])⟩ where
  service := rfl
  tool := rfl
  free := by rw [Json.member?_ofMembers, Json.member?_ofMembers]; exact ⟨howner, hrepository⟩
  members name := by
    rw [Json.Members.lookup_setAll, Json.member?_ofMembers, Json.Members.lookup_setAll,
      List.lookup_nil, Option.or_none]
    by_cases hname : name = "owner"
    · rw [if_pos hname, hname]
      rfl
    by_cases hname' : name = "repo"
    · rw [if_neg hname, if_pos hname', hname']
      rfl
    · rw [if_neg hname, if_neg hname']
      simp [Json.Members.lookup_cons, hname, hname']
  sorted := Json.Members.sorted_setAll _ (Json.Members.sorted_setAll _ List.Pairwise.nil)

/-- Whether a call has an object for parameters and leaves room in it for the parts of the
repository's name. -/
def IsDraft (call : Call) : Prop :=
  ∃ members : Json.Members, call.parameters = Json.ofMembers members ∧
    members.reverse.lookup "owner" = none ∧ members.reverse.lookup "repo" = none

theorem isDraft_issueCall (draft : IssueDraft) : IsDraft (Tracker.issueCall draft) :=
  ⟨_, draft.toJson_eq.symm, rfl, rfl⟩

theorem isDraft_requestCall (request : PullRequest) : IsDraft (Tracker.requestCall request) :=
  ⟨_, request.toJson_eq.symm, rfl, rfl⟩

/-- Whether a list of calls that are sent is what comes of a list of drafts: all of them with the
repository's name if there are credentials, and nothing otherwise. -/
def Passes (settings : Settings) (surroundings : Surroundings) (drafts : List Call)
    (sent : List SentCall) : Prop :=
  (∃ owner repository, settings.HasCredentials surroundings owner repository ∧
      List.Forall₂ (Carries owner repository) drafts sent) ∨
    (¬ ∃ owner repository, settings.HasCredentials surroundings owner repository) ∧ sent = []

/-- A draft is sent with the repository's name if there are credentials. -/
theorem exists_sent (h : settings.HasCredentials surroundings owner repository) {call : Call}
    (hdraft : IsDraft call) :
    ∃ sent, (settings.tracker surroundings).sent? surroundings.network call = some sent ∧
      Carries owner repository call sent := by
  obtain ⟨tool, parameters⟩ := call
  obtain ⟨members, hmembers, howner, hrepository⟩ := hdraft
  dsimp only at hmembers
  subst hmembers
  have hholds := tracker_holds_iff.mpr ⟨owner, repository, h⟩
  refine ⟨_, Simulated.sent?_object hholds rfl, ?_⟩
  rw [tracker_service, tracker_extra h]
  exact carries_ofMembers owner repository tool howner hrepository

/-- What is sent of some drafts is all of them with the repository's name, or nothing. -/
theorem passes_filterMap (settings : Settings) (surroundings : Surroundings) (drafts : List Call)
    (hdrafts : ∀ draft ∈ drafts, IsDraft draft) :
    Passes settings surroundings drafts
      (drafts.filterMap ((settings.tracker surroundings).sent? surroundings.network)) := by
  by_cases h : ∃ owner repository, settings.HasCredentials surroundings owner repository
  · obtain ⟨owner, repository, h⟩ := h
    refine Or.inl ⟨owner, repository, h, ?_⟩
    induction drafts with
    | nil => exact List.Forall₂.nil
    | cons draft rest ih =>
      obtain ⟨sent, hsent, hcarries⟩ := exists_sent h (hdrafts draft (List.mem_cons_self ..))
      rw [List.filterMap_cons_some hsent]
      exact List.Forall₂.cons hcarries
        (ih fun other hother => hdrafts other (List.mem_cons_of_mem _ hother))
  · refine Or.inr ⟨h, List.filterMap_eq_nil_iff.mpr fun draft _ => ?_⟩
    exact Simulated.sent?_unreachable (Bool.not_eq_true _ ▸ mt tracker_holds_iff.mp h)

/-! ## Commands -/

/-- Whether a branch is there and has enough commits that are not on its base, as version control
counts and lists them. -/
structure IsReady (surroundings : Surroundings) (branch base : String) (summary : BranchSummary) :
    Prop where
  branch_eq : summary.branch = branch
  base_eq : summary.base = base
  confirmed : ∃ answer,
    surroundings.versionControl ["rev-parse", "--verify", branch] = some answer
  counted : ∃ text, surroundings.Prints ["rev-list", "--count", base ++ ".." ++ branch] text ∧
    IsCommitCount text summary.commitCount
  enough : 3 ≤ summary.commitCount
  listed : ∃ text, surroundings.Prints ["log", "--oneline", base ++ ".." ++ branch] text ∧
    summary.commits = (Text.lines text.toList).map String.ofList

/-- The calls that a command for the issue tracker drafts. -/
inductive Drafts (settings : Settings) (surroundings : Surroundings) (disk : Disk) :
    Command → List Call → Prop where
  | markers {file : String} {content : ByteArray} (h : disk.contentOf file = .ok content) :
    Drafts settings surroundings disk (.createTodosIssues file)
      (((Marker.scan (Text.lossyText content)).filter (·.kind != .note)).map fun marker =>
        Tracker.issueCall (IssueDraft.ofMarker marker file))
  | unreadable {file : String} {reason : DiskError} (h : disk.contentOf file = .error reason) :
    Drafts settings surroundings disk (.createTodosIssues file) []
  | critical {file changeType : String} (h : isCriticalPath file = true) :
    Drafts settings surroundings disk (.notifyCriticalChange file changeType)
      [Tracker.issueCall (IssueDraft.ofCriticalChange file changeType settings.project)]
  | uncritical {file changeType : String} (h : isCriticalPath file = false) :
    Drafts settings surroundings disk (.notifyCriticalChange file changeType) []
  | ready {branch base : String} {summary : BranchSummary} {request : PullRequest}
    (h : IsReady surroundings branch base summary)
    (hrequest : PullRequest.ofSummary? summary = some request) :
    Drafts settings surroundings disk (.createFeaturePr branch base)
      [Tracker.requestCall request]
  | unready {branch base : String} (h : ∀ summary, ¬ IsReady surroundings branch base summary) :
    Drafts settings surroundings disk (.createFeaturePr branch base) []

/-- What a command for the issue tracker prints when it has sent so many calls. -/
def report : Command → Nat → String
  | .createTodosIssues _, count => toString count
  | _, count => if count = 0 then "skipped" else "success"

/-- Whether a command sends what comes of its drafts and tells how many that was. -/
def Sends (settings : Settings) (surroundings : Surroundings) (disk : Disk) (command : Command) :
    Prop :=
  ∃ drafts answer, Drafts settings surroundings disk command drafts ∧
    (settings.perform surroundings command).run disk = (answer, disk) ∧
    Passes settings surroundings drafts (answer.sent.flatMap (·.calls)) ∧
    answer.output = some (report command (answer.sent.flatMap (·.calls)).length)

theorem branchSummary?_eq_some {branch base : String} {summary : BranchSummary} :
    branchSummary? surroundings branch base = some summary ∧ 3 ≤ summary.commitCount ↔
      IsReady surroundings branch base summary := by
  simp only [branchSummary?, Option.bind_eq_bind, Option.bind_eq_some_iff, Option.pure_def,
    Option.some_inj, Surroundings.versionControlText?_eq_some_iff, commitCount?_eq_some_iff]
  constructor
  · rintro ⟨⟨answer, hanswer, counted, hcounted, count, hcount, listed, hlisted, rfl⟩, henough⟩
    exact ⟨rfl, rfl, ⟨answer, hanswer⟩, ⟨counted, hcounted, hcount⟩, henough,
      ⟨listed, hlisted, rfl⟩⟩
  · intro h
    obtain ⟨answer, hanswer⟩ := h.confirmed
    obtain ⟨counted, hcounted, hcount⟩ := h.counted
    obtain ⟨listed, hlisted, hcommits⟩ := h.listed
    refine ⟨⟨answer, hanswer, counted, hcounted, _, hcount, listed, hlisted, ?_⟩, h.enough⟩
    rw [← hcommits, ← h.branch_eq, ← h.base_eq]

/-- Making calls of the issue tracker sends what comes of their drafts, and counts it. -/
theorem passes_countDelivered (settings : Settings) (surroundings : Surroundings)
    (drafts : List Call) (hdrafts : ∀ draft ∈ drafts, IsDraft draft) :
    ∃ sent, Tracker.countDelivered
        ((settings.tracker surroundings).executor surroundings.network) drafts [] =
      (sent.length, sent) ∧ Passes settings surroundings drafts sent :=
  ⟨_, Simulated.countDelivered_eq _ _ drafts [], passes_filterMap settings surroundings drafts hdrafts⟩

/-- Making one call of the issue tracker sends what comes of its draft, and tells whether anything
was sent. -/
theorem passes_deliver (settings : Settings) (surroundings : Surroundings) {draft : Call}
    (hdraft : IsDraft draft) :
    ∃ sent, ((settings.tracker surroundings).executor surroundings.network).deliver draft [] =
        (!sent.isEmpty, sent) ∧ Passes settings surroundings [draft] sent := by
  have hpasses := passes_filterMap settings surroundings [draft] fun other hmem =>
    List.mem_singleton.mp hmem ▸ hdraft
  refine ⟨_, ?_, hpasses⟩
  rw [Simulated.deliver_eq, List.filterMap_cons, List.filterMap_nil]
  cases (settings.tracker surroundings).sent? surroundings.network draft <;> rfl

/-- Nothing comes of no drafts. -/
theorem passes_nil (settings : Settings) (surroundings : Surroundings) :
    Passes settings surroundings [] [] :=
  passes_filterMap settings surroundings [] (by nofun)

variable {disk : Disk} {command : Command} {drafts : List Call}

/-- A command whose answer tells how many calls were sent, these being what comes of its drafts. -/
theorem sends_of_run (work? : Option Log.Work) (sent : List SentCall)
    (hdrafts : Drafts settings surroundings disk command drafts)
    (hrun : (settings.perform surroundings command).run disk =
      (⟨some (report command sent.length), [⟨work?, sent⟩]⟩, disk))
    (hpasses : Passes settings surroundings drafts sent) :
    Sends settings surroundings disk command := by
  have hsent : [SentDuring.mk work? sent].flatMap (·.calls) = sent := by
    rw [List.flatMap_cons, List.flatMap_nil, List.append_nil]
  refine ⟨drafts, _, hdrafts, hrun, ?_, ?_⟩
  · rwa [hsent]
  · rw [hsent]

/-- The word for whether a call was taken tells whether one was sent. -/
theorem ofDelivery_eq (command : Command) (hcommand : ∀ file, command ≠ .createTodosIssues file)
    (work? : Option Log.Work) (sent : List SentCall) :
    Answer.ofDelivery work? (!sent.isEmpty, sent) =
      ⟨some (report command sent.length), [⟨work?, sent⟩]⟩ := by
  cases command with
  | createTodosIssues file => exact absurd rfl (hcommand file)
  | _ => cases sent <;> rfl

theorem sends_createTodosIssues (settings : Settings) (surroundings : Surroundings) (disk : Disk)
    (file : String) : Sends settings surroundings disk (.createTodosIssues file) := by
  let work := trackerWork "issues_from_markers" [("path", file)]
  have hrun : (settings.perform surroundings (.createTodosIssues file)).run disk =
      let filed := Tracker.issuesFromMarkers
        ((settings.tracker surroundings).executor surroundings.network) file
        (sourceOn? disk file) [];
      (⟨some (toString filed.1), [⟨work, filed.2⟩]⟩, disk) := by
    rw [perform, FileTask.run_bind, readSource_run]
    dsimp only
    rw [← Text.decimal_eq]
    rfl
  rw [sourceOn?] at hrun
  cases hcontent : disk.contentOf file with
  | error reason =>
    rw [hcontent] at hrun
    exact sends_of_run work [] (.unreadable hcontent) hrun (passes_nil settings surroundings)
  | ok content =>
    obtain ⟨sent, hsent, hpasses⟩ := passes_countDelivered settings surroundings
      ((Tracker.markerDrafts (Text.lossyText content) file).map Tracker.issueCall)
      fun draft hmem => by
        obtain ⟨issue, -, rfl⟩ := List.mem_map.mp hmem
        exact isDraft_issueCall issue
    rw [hcontent, Tracker.issuesFromMarkers, Tracker.createIssue_eq, hsent] at hrun
    rw [Tracker.markerDrafts, List.map_map] at hpasses
    exact sends_of_run work sent (.markers hcontent) hrun hpasses

theorem sends_notifyCriticalChange (settings : Settings) (surroundings : Surroundings)
    (disk : Disk) (file changeType : String) :
    Sends settings surroundings disk (.notifyCriticalChange file changeType) := by
  let work := trackerWork "notify_critical_change" [("path", file), ("change_type", changeType)]
  cases hcritical : isCriticalPath file with
  | false =>
    refine sends_of_run work [] (.uncritical hcritical) ?_ (passes_nil settings surroundings)
    rw [perform, Tracker.notifyCriticalChange, hcritical]
    rfl
  | true =>
    obtain ⟨sent, hsent, hpasses⟩ := passes_deliver settings surroundings
      (isDraft_issueCall (IssueDraft.ofCriticalChange file changeType settings.project))
    refine sends_of_run work sent (.critical hcritical) ?_ hpasses
    rw [perform, Tracker.notifyCriticalChange, hcritical, if_pos rfl, Tracker.createIssue_eq, hsent,
      ofDelivery_eq (.notifyCriticalChange file changeType) (by nofun)]
    rfl

theorem sends_createFeaturePr (settings : Settings) (surroundings : Surroundings) (disk : Disk)
    (branch base : String) :
    Sends settings surroundings disk (.createFeaturePr branch base) := by
  let work := trackerWork "create_feature_pr" [("branch", branch), ("base", base)]
  cases hsummary : branchSummary? surroundings branch base with
  | none =>
    have hunready : ∀ summary, ¬ IsReady surroundings branch base summary := fun summary h => by
      have hsome := (branchSummary?_eq_some.mpr h).1
      rw [hsummary] at hsome
      cases hsome
    refine ⟨[], Answer.printed "skipped", .unready hunready, ?_,
      passes_nil settings surroundings, rfl⟩
    rw [perform, hsummary]
    rfl
  | some summary =>
    cases hrequest : PullRequest.ofSummary? summary with
    | none =>
      have hunready : ∀ other, ¬ IsReady surroundings branch base other := fun other h => by
        obtain ⟨hsome, henough⟩ := branchSummary?_eq_some.mpr h
        rw [hsummary, Option.some_inj] at hsome
        exact PullRequest.ofSummary?_eq_none_iff.mp hrequest (hsome ▸ henough)
      refine sends_of_run work [] (.unready hunready) ?_
        (passes_nil settings surroundings)
      simp only [perform, hsummary, Tracker.createFeatureRequest, hrequest]
      rfl
    | some request =>
      have henough : 3 ≤ summary.commitCount := by
        by_contra h
        rw [PullRequest.ofSummary?_eq_none_iff.mpr h] at hrequest
        cases hrequest
      have hready := branchSummary?_eq_some.mp ⟨hsummary, henough⟩
      obtain ⟨sent, hsent, hpasses⟩ := passes_deliver settings surroundings
        (isDraft_requestCall request)
      refine sends_of_run work sent (.ready hready hrequest) ?_ hpasses
      simp only [perform, hsummary, Tracker.createFeatureRequest, hrequest,
        Tracker.createPullRequest_eq]
      rw [hsent, ofDelivery_eq (.createFeaturePr branch base) (by nofun)]
      rfl

/-- **No call of the issue tracker goes out without credentials, and none is altered**: what a
command drafts is sent, all of it, if there are a token and both parts of the repository's name, and
none of it otherwise; each draft is sent as it is, with the repository's name; and what is printed
tells how much was sent. -/
theorem tracker_sends (settings : Settings) (surroundings : Surroundings) (disk : Disk) :
    (∀ file, Sends settings surroundings disk (.createTodosIssues file)) ∧
      (∀ file changeType,
        Sends settings surroundings disk (.notifyCriticalChange file changeType)) ∧
      ∀ branch base, Sends settings surroundings disk (.createFeaturePr branch base) :=
  ⟨sends_createTodosIssues settings surroundings disk,
    sends_notifyCriticalChange settings surroundings disk,
    sends_createFeaturePr settings surroundings disk⟩

end FileLore.Settings
