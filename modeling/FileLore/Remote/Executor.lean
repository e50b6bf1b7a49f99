import FileLore.Json.Value

/-!
# Remote calls

The graph and the issue tracker are reached through an executor, which takes the
name of a tool and its parameters and may refuse. An executor can keep a state
of its own from call to call. A call that is refused is given up, whatever the
reason: `deliver` says only whether it was taken.
-/

namespace FileLore

/-- Why a call was not taken. -/
inductive RemoteError where
  /-- The service cannot be reached or is not set up. -/
  | unavailable (service : String)
  /-- The call could not be made or was turned down. -/
  | failed (reason : String)
  deriving DecidableEq, Repr

/-- The reason in words. -/
def RemoteError.message : RemoteError → String
  | unavailable service => service ++ " not available"
  | failed reason => "remote call failed: " ++ reason

/-- A call of a tool with its parameters. -/
structure Call where
  tool : String
  parameters : Json

/-- What carries out calls: it answers each with a response or a reason, and may change its
state. -/
structure Executor (σ : Type) where
  execute : Call → StateM σ (Except RemoteError Json)

/-- Makes a call and says whether it was taken. -/
def Executor.deliver {σ : Type} (executor : Executor σ) (call : Call) : StateM σ Bool :=
  fun state =>
    let (answer, state) := executor.execute call state
    (answer.isOk, state)

/-- A call is made exactly once to be delivered, and was taken if it was answered. -/
theorem Executor.deliver_eq {σ : Type} (executor : Executor σ) (call : Call) (state : σ) :
    executor.deliver call state =
      ((executor.execute call state).1.isOk, (executor.execute call state).2) :=
  rfl

/-- The response that says that a call of the tool succeeded. -/
def successResponse (tool : String) : Json :=
  Json.ofMembers [("status", .string "success"), ("tool", .string tool)]

end FileLore
