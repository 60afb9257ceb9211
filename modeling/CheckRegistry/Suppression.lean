import CheckRegistry.Check.Basic

/-!
# Suppression

A `Scope` holds what suppressions are visible at one place of a program: the names given in
suppressions there and around it, and the annotation types on the place and around it.  Whether a
finding is suppressed depends on the check's suppressibility and on the scope alone; a `Policy`
may exempt errors from ordinary suppression.
-/

namespace CheckRegistry

/-- The suppressions visible at one place. -/
structure Scope where
  /-- The names given in suppressions. -/
  names : NameSet := ∅
  /-- The annotation types. -/
  annotations : NameSet := ∅
  deriving DecidableEq

namespace Scope

/-- A scope without suppressions. -/
def empty : Scope := {}

/-- The scope with the given names and annotation types. -/
def of (names annotations : List String) : Scope :=
  ⟨NameSet.ofList names, NameSet.ofList annotations⟩

/-- Everything visible in either of two scopes. -/
def join (s t : Scope) : Scope := ⟨s.names ∪ t.names, s.annotations ∪ t.annotations⟩

/-- The scope of an inner place: everything around it and its own suppressions. -/
def nested (s : Scope) (names annotations : List String) : Scope := s.join (of names annotations)

/-- The scope of a place from the scopes that enclose it. -/
def enclosing (scopes : List Scope) : Scope := scopes.foldl join empty

/-- Whether nothing is visible. -/
def isEmpty (s : Scope) : Bool := s.names.isEmpty && s.annotations.isEmpty

end Scope

namespace Check

/-- Whether a scope suppresses a check's findings: by one of its names, by one of its annotation
types, or never. -/
def isSuppressed (c : Check) (s : Scope) : Bool :=
  match c.suppressibility with
  | .unsuppressible => false
  | .suppressWarnings => c.allNames.meets s.names
  | .customAnnotations => c.annotations.meets s.annotations

end Check

/-- How a caller wants suppressions applied. -/
structure Policy where
  /-- Whether errors ignore ordinary suppression.  A check with its own annotation types has
  chosen how it is suppressed, and keeps it. -/
  exemptErrors : Bool := false
  deriving DecidableEq, Repr

/-- Whether a scope suppresses a check's findings under a policy. -/
def Policy.isSuppressed (p : Policy) (c : Check) (s : Scope) : Bool :=
  if p.exemptErrors ∧ c.severity = .error ∧ c.suppressibility = .suppressWarnings then false
  else c.isSuppressed s

end CheckRegistry
