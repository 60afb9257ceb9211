import CheckRegistry.Label

/-!
# Violations

Judging a check never stops at the first broken rule.  Each broken rule is a `Violation`: the
rule, the field it concerns, what is wrong, and whether that keeps the check out of a registry.
-/

namespace CheckRegistry

/-- The rules that checks and registries are judged by. -/
inductive Rule
  | customLinkRequired
  | unusedLink
  | customAnnotationRequired
  | unusedCustomAnnotations
  | emptySummary
  | summaryTrailingPeriod
  | summaryBlockMarkup
  | emptyName
  | nameInAltNames
  | nameCollision
  | malformed
  | nameSurroundingWhitespace
  deriving DecidableEq, Repr

namespace Rule

/-- All rules in the order of their codes. -/
def all : List Rule :=
  [.customLinkRequired, .unusedLink, .customAnnotationRequired, .unusedCustomAnnotations,
   .emptySummary, .summaryTrailingPeriod, .summaryBlockMarkup, .emptyName, .nameInAltNames,
   .nameCollision, .malformed, .nameSurroundingWhitespace]

/-- The upper case name of a rule. -/
def name : Rule → String
  | .customLinkRequired => "CUSTOM_LINK_REQUIRED"
  | .unusedLink => "UNUSED_LINK"
  | .customAnnotationRequired => "CUSTOM_ANNOTATION_REQUIRED"
  | .unusedCustomAnnotations => "UNUSED_CUSTOM_ANNOTATIONS"
  | .emptySummary => "EMPTY_SUMMARY"
  | .summaryTrailingPeriod => "SUMMARY_TRAILING_PERIOD"
  | .summaryBlockMarkup => "SUMMARY_BLOCK_MARKUP"
  | .emptyName => "EMPTY_NAME"
  | .nameInAltNames => "NAME_IN_ALT_NAMES"
  | .nameCollision => "NAME_COLLISION"
  | .malformed => "MALFORMED"
  | .nameSurroundingWhitespace => "NAME_SURROUNDING_WHITESPACE"

/-- The code that reports show for a rule. -/
def code : Rule → String
  | .customLinkRequired => "BP-0001"
  | .unusedLink => "BP-0002"
  | .customAnnotationRequired => "BP-0003"
  | .unusedCustomAnnotations => "BP-0004"
  | .emptySummary => "BP-0005"
  | .summaryTrailingPeriod => "BP-0006"
  | .summaryBlockMarkup => "BP-0007"
  | .emptyName => "BP-0008"
  | .nameInAltNames => "BP-0009"
  | .nameCollision => "BP-0010"
  | .malformed => "BP-0011"
  | .nameSurroundingWhitespace => "BP-0012"

/-- The rule with a given name. -/
def ofName? (s : String) : Option Rule := all.find? fun r => r.name == s

end Rule

/-- How seriously a broken rule is taken. -/
inductive Level
  /-- The check stays out of the registry. -/
  | fatal
  /-- The check is registered and the violation reported. -/
  | warning
  deriving DecidableEq, Repr

/-- The lower case name of a level. -/
def Level.name : Level → String
  | .fatal => "fatal"
  | .warning => "warning"

/-- One broken rule. -/
structure Violation where
  rule : Rule
  /-- The field that the violation concerns. -/
  field : String
  message : String
  level : Level
  deriving DecidableEq, Repr

namespace Violation

/-- Whether the violation keeps a check out of a registry. -/
def isFatal (v : Violation) : Bool := v.level == .fatal

/-- The same violation taken as fatal. -/
def promoted (v : Violation) : Violation := { v with level := .fatal }

/-- The line that reports a violation. -/
def text (v : Violation) : String :=
  "[" ++ v.rule.code ++ "] " ++ v.field ++ ": " ++ v.message ++ " (" ++ v.level.name ++ ")"

/-- Several violations on one line. -/
def joinTexts (vs : List Violation) : String := "; ".intercalate (vs.map text)

end Violation

/-- The error that carries the violations of one check, or of several when no check is named. -/
structure Invalid where
  violations : List Violation
  /-- The name of the check, empty when none is named. -/
  check : String
  deriving DecidableEq, Repr

/-- The wording of the error. -/
def Invalid.message (e : Invalid) : String :=
  labelled e.check
    (if e.violations.isEmpty then "validation failed" else Violation.joinTexts e.violations)

end CheckRegistry
