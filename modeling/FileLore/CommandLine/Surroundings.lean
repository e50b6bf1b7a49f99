import FileLore.Remote.Simulated

/-!
# Surroundings

What a run of the program finds around it besides files: the environment, the
place and the time, and answers from version control and from the network.
-/

namespace FileLore

/-- What a run of the program finds around it. -/
structure Surroundings where
  /-- The variables of the environment; of two values for a name the first counts. -/
  environment : List (String × String)
  /-- The user's home if the environment does not name it. -/
  accountHome : Option String
  /-- The path of the working directory; none if it has been removed. -/
  workingDirectory : Option String
  /-- The instant at which the program runs. -/
  now : Int
  /-- What version control prints for arguments, if it succeeds. -/
  versionControl : List String → Option ByteArray
  network : Network

namespace Surroundings

/-- The value of a variable of the environment. -/
def valueOf? (surroundings : Surroundings) (name : String) : Option String :=
  surroundings.environment.lookup name

/-- The user's home. A variable that is empty does not name it. -/
def home? (surroundings : Surroundings) : Option String :=
  match surroundings.valueOf? "HOME" with
  | some home => if home.isEmpty then surroundings.accountHome else some home
  | none => surroundings.accountHome

/-- The working directory as far as it is known. -/
def here (surroundings : Surroundings) : String :=
  surroundings.workingDirectory.getD "."

end Surroundings

end FileLore
