import FileLore.Proofs.Json.Members
import FileLore.Remote.Simulated
import FileLore.Tracker.Filing

/-!
# What the simulated executor sends

A call is sent just if the service can be reached and the parameters are an object
(`sent?_object`, `sent?_unreachable`). The log grows by the calls that are sent, in
the order in which they are made, and nothing but the calls that are sent counts as
taken (`deliver_eq`, `countDelivered_eq`).
-/

namespace FileLore.Simulated

variable {simulated : Simulated} {network : Network} {call : Call}

/-- What is sent for a call, if anything is. -/
def sent? (simulated : Simulated) (network : Network) (call : Call) : Option SentCall :=
  (simulated.prepare network call).toOption

/-- Nothing is sent to a service that cannot be reached. -/
theorem sent?_unreachable (h : simulated.availability.holds network = false) :
    simulated.sent? network call = none := by
  rw [sent?, prepare, h]
  rfl

/-- A call whose parameters are an object is sent with these and those of the executor's own. -/
theorem sent?_object (h : simulated.availability.holds network = true) {members : Json.Members}
    (hobject : call.parameters = .object members) :
    simulated.sent? network call =
      some ⟨simulated.service, call.tool, Json.Members.setAll simulated.extra members⟩ := by
  rw [sent?, prepare, h, hobject]
  rfl

/-- A call is taken just if it is sent, and is logged then. -/
theorem deliver_eq (simulated : Simulated) (network : Network) (call : Call)
    (log : List SentCall) :
    (simulated.executor network).deliver call log =
      ((simulated.sent? network call).isSome, log ++ (simulated.sent? network call).toList) := by
  rw [Executor.deliver_eq, executor, sent?]
  dsimp only
  cases simulated.prepare network call with
  | error reason => rw [Except.toOption, Option.toList_none, List.append_nil]; rfl
  | ok sent => rfl

/-- Of several calls those that are sent are logged in their order, and are all that counts. -/
theorem countDelivered_eq (simulated : Simulated) (network : Network) (calls : List Call) :
    ∀ log : List SentCall, Tracker.countDelivered (simulated.executor network) calls log =
      ((calls.filterMap (simulated.sent? network)).length,
        log ++ calls.filterMap (simulated.sent? network)) := by
  induction calls with
  | nil => exact fun log => congrArg (Prod.mk 0) (List.append_nil log).symm
  | cons call rest ih =>
    intro log
    rw [Tracker.countDelivered_cons, deliver_eq]
    dsimp only
    rw [ih]
    cases h : simulated.sent? network call with
    | none => simp [h]
    | some sent => simp [h]

end FileLore.Simulated
