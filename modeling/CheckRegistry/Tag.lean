import CheckRegistry.Check.Basic

/-!
# Tags

Checks are listed by tag and by severity.  A check that reports errors counts as carrying the tag
for likely errors, whether it declares it or not; the views of this module look at these
effective tags only.
-/

namespace CheckRegistry

/-- The tag of checks whose findings are most likely errors. -/
def likelyErrorTag : String := "LikelyError"

namespace Check

/-- The declared tags, and the tag for likely errors if the check reports errors. -/
def effectiveTags (c : Check) : NameSet :=
  if c.severity = .error then c.tags.insert likelyErrorTag else c.tags

/-- The checks that carry a tag, in the given order. -/
def withTag (checks : List Check) (tag : String) : List Check :=
  checks.filter fun c => decide (tag ∈ c.effectiveTags)

/-- The checks whose findings are most likely errors. -/
def likelyErrors (checks : List Check) : List Check := withTag checks likelyErrorTag

/-- Adds a check to the group of a tag, which is made at its place if there is none. -/
def addToGroup (tag : String) (c : Check) : List (String × List Check) → List (String × List Check)
  | [] => [(tag, [c])]
  | (t, group) :: rest =>
    if tag < t then (tag, [c]) :: (t, group) :: rest
    else if tag = t then (t, group ++ [c]) :: rest
    else (t, group) :: addToGroup tag c rest

/-- Adds a check to the group of each of its tags. -/
def addToGroups (groups : List (String × List Check)) (c : Check) : List (String × List Check) :=
  c.effectiveTags.toList.foldl (fun groups tag => addToGroup tag c groups) groups

/-- The checks of each tag, tags in increasing order and checks in the given one. -/
def groupByTag (checks : List Check) : List (String × List Check) := checks.foldl addToGroups []

/-- Adds a check to the group of its severity. -/
def addToSeverity (groups : List (Severity × List Check)) (c : Check) :
    List (Severity × List Check) :=
  groups.map fun g => if g.1 = c.severity then (g.1, g.2 ++ [c]) else g

/-- The checks of each severity, those without a check included. -/
def groupBySeverity (checks : List Check) : List (Severity × List Check) :=
  checks.foldl addToSeverity (Vocabulary.members.map fun s => (s, []))

end Check

end CheckRegistry
