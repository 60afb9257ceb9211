import CheckRegistry.Check.Record
import CheckRegistry.Config
import CheckRegistry.Log
import CheckRegistry.Registry.Basic

/-!
# Building a registry from declarations

Where a registry is made of declarations, a bad one does not spoil the others.  `Build.ofList`
leaves out every declaration that describes no check or an invalid one, and then every check that
shares a name with another; what is left out is reported with its violations.
-/

namespace CheckRegistry

/-- What a registry is built of: a record to be read, or a check. -/
inductive Declared
  | record (r : Record)
  | check (c : Check)

/-- A declaration that was left out, and why. -/
structure Rejected where
  name : String
  violations : List Violation
  deriving DecidableEq, Repr

/-- The line that reports a declaration that was left out. -/
def Rejected.text (r : Rejected) : String := r.name ++ ": " ++ Violation.joinTexts r.violations

/-- What became of one declaration by itself. -/
inductive Declared.Verdict
  | rejected (r : Rejected)
  /-- The check is valid, apart from some warnings. -/
  | accepted (c : Check) (warnings : List Violation)

namespace Declared

/-- Reads and judges one declaration. -/
def judge (strict : Bool) (d : Declared) : Verdict :=
  let checked (c : Check) : Verdict :=
    let report := c.judge strict
    if report.isOk then .accepted c report.warnings else .rejected ⟨c.name, report.errors⟩
  match d with
  | .check c => checked c
  | .record r =>
    match Check.ofRecord r with
    | .ok c => checked c
    | .error e => .rejected ⟨r.declaredName, [e.violation]⟩

namespace Verdict

/-- The check, if it was accepted. -/
def check? : Verdict → Option Check
  | .accepted c _ => some c
  | .rejected _ => none

/-- The report, if the declaration was rejected. -/
def rejected? : Verdict → Option Rejected
  | .rejected r => some r
  | .accepted .. => none

/-- The warnings with the name of the check that they are about. -/
def warnings : Verdict → List (String × Violation)
  | .accepted c ws => ws.map fun w => (c.name, w)
  | .rejected _ => []

end Verdict

end Declared

/-- A registry built of declarations, what was left out, and the warnings about valid checks. -/
structure Build where
  registry : Registry
  rejected : List Rejected
  /-- Warnings with the name of the check that they are about. -/
  warnings : List (String × Violation)
  deriving DecidableEq

namespace Build

/-- Builds a registry of declarations. -/
def ofList (declared : List Declared) (config : Config) : Build :=
  let verdicts := declared.map (Declared.judge config.strict)
  let accepted := verdicts.filterMap (·.check?)
  { registry := Registry.ofList (Collision.uncontested accepted)
    rejected :=
      verdicts.filterMap (·.rejected?) ++
        (Collision.find accepted).map fun (c, vs) => ⟨c.name, vs⟩
    warnings := verdicts.flatMap (·.warnings) }

/-- Whether nothing was left out. -/
def isOk (b : Build) : Bool := b.rejected.isEmpty

/-- The messages about a build: what was left out, the warnings, and a count. -/
def log (b : Build) : List LogEntry :=
  (b.rejected.map fun r => ⟨.error, "excluding bug pattern " ++ r.text⟩) ++
  (b.warnings.map fun (name, w) => ⟨.warning, name ++ ": " ++ w.text⟩) ++
  [⟨.info, s!"registered {b.registry.size} bug patterns ({b.rejected.length} rejected)"⟩]

end Build

end CheckRegistry
