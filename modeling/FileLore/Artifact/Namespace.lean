/-!
# Namespaces

What is stored about a file falls into four namespaces, each with an artifact of
its own.
-/

namespace FileLore

/-- A category of artifacts. -/
inductive Namespace where
  /-- What the file imports and exports. -/
  | context
  /-- How many files depend on it. -/
  | impact
  /-- Patterns that it violates. -/
  | violations
  /-- Metrics for its optimization. -/
  | optimization
  deriving DecidableEq, Repr

namespace Namespace

/-- The tag that stands for the namespace in the names of artifacts. -/
def tag : Namespace → String
  | context => "context"
  | impact => "impact"
  | violations => "violations"
  | optimization => "optimization"

/-- All namespaces. -/
def all : List Namespace := [context, impact, violations, optimization]

/-- The namespace with the given tag. -/
def ofTag? (tag : String) : Option Namespace :=
  all.find? (·.tag == tag)

end Namespace

end FileLore
