import FileLore.Json.Printer
import FileLore.Remote.Executor

/-!
# The simulated executor

Nothing is sent over a wire: a call that would be sent is written to a log and
answered with success. Whether its service could be reached is found out first,
so that a run behaves as it would with the real service. Parameters of the
executor's own are merged into those of every call and win over them.
-/

namespace FileLore

/-- Which addresses accept a connection within a number of milliseconds. -/
abbrev Network := String → Nat → Bool

/-- When a service counts as reachable. -/
inductive Availability where
  | always
  | never
  /-- When the address accepts a connection within the time given. -/
  | address (host : String) (milliseconds : Nat)
  /-- When there is a token, not empty, and both parts of a repository's name. -/
  | credentials (token owner repository : Option String)

/-- Whether the service can be reached over the network given. -/
def Availability.holds (network : Network) : Availability → Bool
  | always => true
  | never => false
  | address host milliseconds => network host milliseconds
  | credentials token owner repository =>
    token.any (!·.isEmpty) && owner.isSome && repository.isSome

/-- A call as it stands in the log. -/
structure SentCall where
  service : String
  tool : String
  parameters : Json.Members

/-- The parameters of a logged call as text. -/
def SentCall.parameterText (sent : SentCall) : String :=
  (Json.object sent.parameters).compact

/-- An executor that logs what it would send. -/
structure Simulated where
  service : String
  availability : Availability
  /-- Parameters merged into those of every call. -/
  extra : Json.Members

namespace Simulated

/-- An executor without parameters of its own. -/
def new (service : String) (availability : Availability) : Simulated :=
  ⟨service, availability, []⟩

/-- The executor with one more parameter; an earlier value for the name is replaced. -/
def withParameter (simulated : Simulated) (name : String) (value : Json) : Simulated :=
  { simulated with extra := simulated.extra.set name value }

/-- What comes of a call: the call to be logged, or why it is not sent. -/
def prepare (simulated : Simulated) (network : Network) (call : Call) :
    Except RemoteError SentCall :=
  if !simulated.availability.holds network then .error (.unavailable simulated.service)
  else
    match call.parameters with
    | .object members =>
      .ok ⟨simulated.service, call.tool, Json.Members.setAll simulated.extra members⟩
    | _ => .error (.failed ("parameters for " ++ call.tool ++ " must be a JSON object"))

/-- The executor, its state being the log of the calls sent so far. -/
def executor (simulated : Simulated) (network : Network) : Executor (List SentCall) where
  execute call := fun log =>
    match simulated.prepare network call with
    | .ok sent => (.ok (successResponse call.tool), log ++ [sent])
    | .error reason => (.error reason, log)

end Simulated

end FileLore
