import CheckRegistry.Check.Basic
import CheckRegistry.Violation

/-!
# Name collisions

In a registry each name leads to one check.  A name that several checks claim, as their own or as
an alternate name, is contested, and no claimant has a better right to it than another: each of
them is told which others claim the name.
-/

namespace CheckRegistry

namespace Collision

/-- The checks that claim a name, by their positions. -/
def claimants (checks : List Check) (name : String) : List Nat :=
  (checks.zipIdx.filter fun (c, _) => decide (name ∈ c.allNames)).map Prod.snd

/-- The names of all checks in the order in which they are first claimed: check by check, and the
names of one check in increasing order. -/
def claimedNames (checks : List Check) : List String :=
  (checks.flatMap fun c => c.allNames.toList).eraseDups

/-- The names that more than one check claims. -/
def contestedNames (checks : List Check) : List String :=
  (claimedNames checks).filter fun name => decide (2 ≤ (claimants checks name).length)

/-- The names of the other claimants of a name, in increasing order. -/
def rivals (checks : List Check) (i : Nat) (name : String) : List String :=
  sortTexts
    ((checks.zipIdx.filter fun (c, j) => decide (name ∈ c.allNames) && j != i).map (·.1.name))

/-- The violation of a check that claims a contested name. -/
def violation (checks : List Check) (i : Nat) (c : Check) (name : String) : Violation :=
  ⟨.nameCollision, if c.name = name then "name" else "alt_names",
    Text.quoted name ++ " is also claimed by " ++ ", ".intercalate (rivals checks i name), .fatal⟩

/-- Whether a check claims one of some names. -/
def claimsAny (names : List String) (c : Check) : Bool :=
  names.any fun name => decide (name ∈ c.allNames)

/-- The violations of the check at a position, one for each contested name of its own. -/
def violations (checks : List Check) (contested : List String) (i : Nat) (c : Check) :
    List Violation :=
  (contested.filter fun name => decide (name ∈ c.allNames)).map (violation checks i c)

/-- The checks that claim a contested name, in order of position, with their violations. -/
def find (checks : List Check) : List (Check × List Violation) :=
  let contested := contestedNames checks
  (checks.zipIdx.filter fun (c, _) => claimsAny contested c).map fun (c, i) =>
    (c, violations checks contested i c)

/-- The checks that claim no contested name. -/
def uncontested (checks : List Check) : List Check :=
  let contested := contestedNames checks
  checks.filter fun c => !claimsAny contested c

/-- The positions of the checks that claim a contested name, in the order in which the contested
names come up. -/
def order (checks : List Check) : List Nat :=
  ((contestedNames checks).flatMap (claimants checks)).eraseDups

/-- All violations, check by check in the order in which the contested names come up. -/
def all (checks : List Check) : List Violation :=
  let contested := contestedNames checks
  (order checks).flatMap fun i => (checks[i]?.map (violations checks contested i)).getD []

end Collision

end CheckRegistry
