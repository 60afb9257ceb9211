import CheckRegistry.Check.Judgement
import CheckRegistry.Link
import CheckRegistry.Registry.Collision
import CheckRegistry.Suppression
import CheckRegistry.Tag

/-!
# Registries

A registry holds checks in the order in which they were registered and finds each by any of its
names.  `Registry.ofChecks` makes one of checks that are valid and share no name, and refuses all
others; then at most one check is found under a name.
-/

namespace CheckRegistry

/-- The checks of a run, with the index from names to checks. -/
structure Registry where
  /-- The checks in the order of registration. -/
  checks : List Check
  /-- Each name with the check that it leads to. -/
  index : List (String × Check)
  deriving DecidableEq

namespace Registry

/-- Sets the check that a name leads to. -/
def setName (name : String) (c : Check) : List (String × Check) → List (String × Check)
  | [] => [(name, c)]
  | (n, old) :: rest => if n = name then (n, c) :: rest else (n, old) :: setName name c rest

/-- Lets all names of a check lead to it. -/
def indexCheck (index : List (String × Check)) (c : Check) : List (String × Check) :=
  c.allNames.toList.foldl (fun index name => setName name c index) index

/-- The registry of some checks, whether or not they go together. -/
def ofList (checks : List Check) : Registry := ⟨checks, checks.foldl indexCheck []⟩

/-- The registry of some checks.  It is refused with all fatal violations of the checks, and then
all collisions between them, if there are any. -/
def ofChecks (checks : List Check) (strict : Bool) : Except Invalid Registry :=
  let problems := (checks.flatMap fun c => (c.judge strict).errors) ++ Collision.all checks
  if problems.isEmpty then .ok (ofList checks) else .error ⟨problems, ""⟩

/-- The error of a name that leads to no check. -/
structure UnknownName where
  name : String
  deriving DecidableEq, Repr

/-- The wording of the error. -/
def UnknownName.message (e : UnknownName) : String := "no bug pattern named " ++ Text.quoted e.name

/-- The check that a name leads to. -/
def get? (r : Registry) (name : String) : Option Check := r.index.lookup name

/-- The check that a name has to lead to. -/
def resolve (r : Registry) (name : String) : Except UnknownName Check :=
  match r.get? name with
  | some c => .ok c
  | none => .error ⟨name⟩

/-- Whether a name leads to a check. -/
def contains (r : Registry) (name : String) : Bool := (r.get? name).isSome

/-- The number of checks. -/
def size (r : Registry) : Nat := r.checks.length

/-- The names of the checks, in increasing order. -/
def names (r : Registry) : List String := sortTexts (r.checks.map Check.name)

/-- A short description of a registry. -/
def literal (r : Registry) : String := s!"<Registry {r.size} checks>"

/-- Why checks cannot be turned off. -/
inductive DisableError
  | unknown (e : UnknownName)
  /-- The check is not one that may be turned off as a whole. -/
  | locked (name : String) (suppressibility : Suppressibility)
  deriving DecidableEq, Repr

/-- The wording of the error. -/
def DisableError.message : DisableError → String
  | .unknown e => e.message
  | .locked name s =>
    labelled name ("cannot disable a check with suppressibility " ++ Vocabulary.word s)

/-- The names of the checks that some keys turn off. -/
def disabledNames (r : Registry) : List String → Except DisableError (List String)
  | [] => .ok []
  | key :: rest =>
    match r.resolve key with
    | .error e => .error (.unknown e)
    | .ok c =>
      if c.isDisableable then (c.name :: ·) <$> disabledNames r rest
      else .error (.locked c.name c.suppressibility)

/-- The checks that are left when some, given by any of their names, are turned off. -/
def active (r : Registry) (disabled : List String) : Except DisableError (List Check) :=
  (r.disabledNames disabled).map fun off => r.checks.filter fun c => !off.contains c.name

end Registry

end CheckRegistry
