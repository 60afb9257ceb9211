import CheckRegistry.Check.Basic
import CheckRegistry.Text.Markup
import CheckRegistry.Violation

/-!
# Judging a check

`Check.violations` applies every rule to a check and lists what is broken: the rules on the link
first, then those on suppression, the summary and the names.  A setting that has no effect is a
warning; under a strict judgement it is fatal as well.
-/

namespace CheckRegistry

namespace Check

/-- The rules on the link: a custom link has to be there, any other is ignored. -/
def linkViolations (c : Check) : List Violation :=
  if c.linkType = .custom then
    if Text.isBlankText c.link then
      [⟨.customLinkRequired, "link", "link type CUSTOM requires a non-empty link", .fatal⟩]
    else []
  else if c.link.isEmpty then []
  else
    [⟨.unusedLink, "link",
      "link is ignored when link type is " ++ Vocabulary.word c.linkType, .warning⟩]

/-- The rules on suppression: custom suppression needs an annotation type, any other ignores
them. -/
def suppressionViolations (c : Check) : List Violation :=
  let field := Field.annotations.key
  if c.suppressibility = .customAnnotations then
    if c.annotations.isEmpty then
      [⟨.customAnnotationRequired, field,
        "suppressibility CUSTOM_ANNOTATION requires at least one annotation type", .fatal⟩]
    else []
  else if c.annotations.isEmpty then []
  else
    [⟨.unusedCustomAnnotations, field,
      "annotations are ignored when suppressibility is " ++ Vocabulary.word c.suppressibility,
      .warning⟩]

/-- Whether a text ends in a period when the white space around it is left away. -/
def endsInPeriod (s : String) : Bool := (Text.trim s).toList.getLast? == some '.'

/-- The rules on the summary.  An empty one breaks no further rule. -/
def summaryViolations (c : Check) : List Violation :=
  if Text.isBlankText c.summary then
    [⟨.emptySummary, "summary", "summary must not be empty", .fatal⟩]
  else
    (if endsInPeriod c.summary then
      [⟨.summaryTrailingPeriod, "summary", "summary must not end with a period", .fatal⟩]
    else []) ++
    (if Text.hasBlockMarkup c.summary then
      [⟨.summaryBlockMarkup, "summary", "summary must be a single line without block markup",
        .fatal⟩]
    else [])

/-- Whether an alternate name is empty or has white space around it. -/
def isUntidy (alt : String) : Bool := alt.isEmpty || Text.hasOuterBlank alt

/-- The rules on the name and on the alternate names. -/
def nameViolations (c : Check) : List Violation :=
  (if Text.isBlankText c.name then
    [⟨.emptyName, "name", "name must not be empty", .fatal⟩]
  else if Text.hasOuterBlank c.name then
    [⟨.nameSurroundingWhitespace, "name",
      "name " ++ Text.quoted c.name ++ " has leading or trailing whitespace", .fatal⟩]
  else []) ++
  ((c.altNames.toList.filter isUntidy).map fun alt =>
    ⟨.nameSurroundingWhitespace, "alt_names",
      "alt name " ++ Text.quoted alt ++ " is empty or has leading or trailing whitespace",
      .fatal⟩) ++
  (if c.name ∈ c.altNames then
    [⟨.nameInAltNames, "alt_names",
      "alt names must not repeat the name " ++ Text.quoted c.name, .fatal⟩]
  else [])

/-- Every broken rule of a check, warnings included. -/
def violations (c : Check) : List Violation :=
  c.linkViolations ++ c.suppressionViolations ++ c.summaryViolations ++ c.nameViolations

end Check

/-- What judging a check came to. -/
structure Report where
  /-- The name of the check. -/
  check : String
  violations : List Violation
  deriving DecidableEq, Repr

namespace Report

/-- The fatal violations. -/
def errors (r : Report) : List Violation := r.violations.filter (·.isFatal)

/-- The violations that are only reported. -/
def warnings (r : Report) : List Violation := r.violations.filter fun v => !v.isFatal

/-- Whether the check may be registered. -/
def isOk (r : Report) : Bool := r.errors.isEmpty

end Report

namespace Check

/-- Judges a check; a strict judgement takes warnings as fatal. -/
def judge (c : Check) (strict : Bool) : Report :=
  ⟨c.name, if strict then c.violations.map Violation.promoted else c.violations⟩

/-- Judges a check and refuses it if a violation is fatal. -/
def validate (c : Check) (strict : Bool) : Except Invalid Report :=
  let report := c.judge strict
  if report.isOk then .ok report else .error ⟨report.errors, report.check⟩

end Check

end CheckRegistry
