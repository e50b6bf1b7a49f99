import FileLore.Remote.Executor
import Mathlib.Data.List.Forall2

/-!
# Calls under watch

What a program asks of an executor can be seen by giving it one that keeps account
of every call made of it, taken or not, with the answer. Watching changes nothing
of what the executor answers and of what becomes of its state, so what holds of the
account holds of the calls that the program makes of the executor itself, however
this one behaves.
-/

namespace FileLore

/-- A call that has been made of an executor, with the answer. -/
structure Exchange where
  call : Call
  answer : Except RemoteError Json

/-- Whether the call was taken. -/
def Exchange.isTaken (exchange : Exchange) : Bool := exchange.answer.isOk

namespace Executor

variable {σ : Type}

/-- The executor with an account of all calls made of it. -/
def watched (executor : Executor σ) : Executor (σ × List Exchange) where
  execute call := fun (state, made) =>
    let (answer, next) := executor.execute call state
    (answer, (next, made ++ [⟨call, answer⟩]))

/-- Making a call adds it to the account, once, and is otherwise as it is without being watched. -/
theorem deliver_watched (executor : Executor σ) (call : Call) (state : σ)
    (before : List Exchange) :
    ∃ (exchange : Exchange) (next : σ), exchange.call = call ∧
      executor.deliver call state = (exchange.isTaken, next) ∧
      executor.watched.deliver call (state, before) =
        (exchange.isTaken, (next, before ++ [exchange])) :=
  ⟨⟨call, (executor.execute call state).1⟩, (executor.execute call state).2, rfl, rfl, rfl⟩

end Executor

end FileLore
