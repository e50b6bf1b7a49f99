import FileLore.Proofs.Json.Members
import FileLore.Remote.Simulated
import Mathlib.Data.List.Forall2

/-!
# The parameters of what is sent

An executor is set up with parameters of its own, one after another, and merges them into
those of every call that it sends: what is sent is the union of both in which its own win,
and of several values set up for one name the last.

Calls leave the executor as it is, so in any sequence each of them is handled as if it were
the first, whatever its network has come to by then (`execute_handled`,
`execute_each_handled`).
-/

namespace FileLore.Simulated

open Json.Members

/-- The executor with more parameters of its own, added one after another. -/
def withParameters (simulated : Simulated) (given : Json.Members) : Simulated :=
  given.foldl (fun simulated parameter => simulated.withParameter parameter.1 parameter.2) simulated

/-- Parameters are added to those that the executor has, and nothing else about it changes. -/
theorem withParameters_eq (given : Json.Members) : ∀ simulated : Simulated,
    simulated.withParameters given = { simulated with extra := setAll given simulated.extra } := by
  induction given with
  | nil => exact fun _ => rfl
  | cons parameter rest ih =>
    intro simulated
    rw [withParameters, List.foldl_cons, ← withParameters, ih]
    rfl

/-- How a call of a service is to be handled, given whether the service can be reached: what is
answered, and what is sent. -/
inductive Handled (service : String) (given : Json.Members) (reachable : Bool) (call : Call) :
    Except RemoteError Json → List SentCall → Prop where
  | unreachable (h : reachable = false) :
    Handled service given reachable call (.error (.unavailable service)) []
  | noObject (h : reachable = true) (hobject : ∀ members, call.parameters ≠ .object members) :
    Handled service given reachable call
      (.error (.failed ("parameters for " ++ call.tool ++ " must be a JSON object"))) []
  | sent {members merged : Json.Members} (h : reachable = true)
    (hobject : call.parameters = .object members) (hunion : IsUnion given members merged) :
    Handled service given reachable call
      (.ok (.object [("status", .string "success"), ("tool", .string call.tool)]))
      [⟨service, call.tool, merged⟩]

theorem successResponse_eq (tool : String) :
    successResponse tool = .object [("status", .string "success"), ("tool", .string tool)] := by
  have horder : ¬"tool" < "status" := by decide
  simp [successResponse, Json.ofMembers, setAll, Json.Members.set, horder]

variable (service : String) (availability : Availability) (given : Json.Members)

/-- A call is handled as it is to be, whatever has been sent before. -/
theorem execute_handled (network : Network) (call : Call) (log : List SentCall) :
    ∃ answer sent, Handled service given (availability.holds network) call answer sent ∧
      (((new service availability).withParameters given).executor network).execute call log =
        (answer, log ++ sent) := by
  rw [withParameters_eq, executor]
  by_cases hreachable : availability.holds network = true
  · by_cases hobject : ∃ members, call.parameters = .object members
    · obtain ⟨members, hmembers⟩ := hobject
      refine ⟨_, _, .sent hreachable hmembers (isUnion_setAll given members), ?_⟩
      simp [prepare, new, hreachable, hmembers, successResponse_eq]
    · rw [not_exists] at hobject
      refine ⟨_, [], .noObject hreachable hobject, ?_⟩
      cases hparameters : call.parameters with
      | object members => exact absurd hparameters (hobject members)
      | null | bool | number | string | array => simp [prepare, new, hreachable, hparameters]
  · rw [Bool.not_eq_true] at hreachable
    exact ⟨_, [], .unreachable hreachable, by simp [prepare, new, hreachable]⟩

/-- **Each call of a sequence is sent with the union of its parameters and the executor's own, or
not at all**, and is handled as it would be by itself: which parameters these are, and what is
answered, depends on nothing but the executor as it was set up, the call, and whether the service
can be reached when it is made. -/
theorem execute_each_handled (steps : List (Network × Call)) : ∀ log : List SentCall,
    ∃ outcomes : List (Except RemoteError Json × List SentCall),
      List.Forall₂ (fun step outcome =>
        Handled service given (availability.holds step.1) step.2 outcome.1 outcome.2)
        steps outcomes ∧
      (steps.mapM fun step =>
        (((new service availability).withParameters given).executor step.1).execute step.2) log =
        (outcomes.map (·.1), log ++ outcomes.flatMap (·.2)) := by
  induction steps with
  | nil => exact fun log => ⟨[], .nil, congrArg (Prod.mk []) (List.append_nil log).symm⟩
  | cons step rest ih =>
    intro log
    obtain ⟨answer, sent, hfirst, hrun⟩ :=
      execute_handled service availability given step.1 step.2 log
    obtain ⟨outcomes, hrest, hruns⟩ := ih (log ++ sent)
    refine ⟨(answer, sent) :: outcomes, .cons hfirst hrest, ?_⟩
    rw [List.mapM_cons, List.map_cons, List.flatMap_cons, ← List.append_assoc]
    simp only [bind, StateT.bind, hrun, hruns]
    rfl

end FileLore.Simulated
