import FileLore.Remote.Executor

/-!
# The recording executor

An executor for trying out what makes calls: it takes a number of calls, or all,
keeps them in order, and refuses every call after these for one fixed reason.
-/

namespace FileLore

/-- An executor that takes the first calls and refuses the others. -/
structure Recorder where
  /-- How many calls are taken; all if none is given. -/
  accepts : Option Nat
  /-- Why the others are refused. -/
  refusal : RemoteError

/-- The executor, its state being the calls taken so far. -/
def Recorder.executor (recorder : Recorder) : Executor (List Call) where
  execute call := fun taken =>
    if recorder.accepts.all (taken.length < ·) then
      (.ok (successResponse call.tool), taken ++ [call])
    else (.error recorder.refusal, taken)

end FileLore
