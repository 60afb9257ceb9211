import CheckRegistry.Check.Field
import CheckRegistry.NameSet
import CheckRegistry.Text.Quoted
import CheckRegistry.Value.Basic

/-!
# Checks

A check describes one bug pattern that a static analysis tool looks for: its names, how severe a
finding is, how findings are suppressed and linked, and what its documentation says.  A `Check`
is complete and has the right kind of value in each field; whether the fields fit together is
judged by `Check.violations`.
-/

namespace CheckRegistry

/-- A bug pattern as it declares itself. -/
structure Check where
  /-- The identifier, which also names the check in suppressions. -/
  name : String
  /-- One line without markup and without a period at its end. -/
  summary : String
  severity : Severity
  /-- Further identifiers that suppressions may use. -/
  altNames : NameSet := ∅
  linkType : LinkType := .autogenerated
  /-- The link shown with a finding when the link type is custom. -/
  link : String := ""
  tags : NameSet := ∅
  fix : Fix := .noFix
  category : Category := .oneOff
  /-- A long description, in which markup is allowed. -/
  explanation : String := ""
  suppressibility : Suppressibility := .suppressWarnings
  /-- The annotation types that suppress a check with custom suppression. -/
  annotations : NameSet := ∅
  /-- Whether the documentation says how to suppress a finding. -/
  documentSuppression : Bool := true
  /-- Whether the documentation shows examples from the test fixtures. -/
  generateExamples : Bool := true
  deriving DecidableEq

/-- A set of names as a value: the list of its names in order. -/
def Value.ofNames (s : NameSet) : Value := .list (s.toList.map .text)

namespace Check

/-- The name and the alternate names. -/
def allNames (c : Check) : NameSet := c.altNames.insert c.name

/-- Whether the check may be turned off as a whole: exactly those that ordinary suppression
reaches. -/
def isDisableable (c : Check) : Bool := c.suppressibility == .suppressWarnings

/-- A check as a record, each field under its key with capitals and in a fixed order. -/
def toRecord (c : Check) : List (String × Value) :=
  [(Field.name.camelKey, .text c.name),
   (Field.altNames.camelKey, .ofNames c.altNames),
   (Field.linkType.camelKey, .text (Vocabulary.word c.linkType)),
   (Field.link.camelKey, .text c.link),
   (Field.tags.camelKey, .ofNames c.tags),
   (Field.fix.camelKey, .text (Vocabulary.word c.fix)),
   (Field.category.camelKey, .text (Vocabulary.word c.category)),
   (Field.summary.camelKey, .text c.summary),
   (Field.explanation.camelKey, .text c.explanation),
   (Field.severity.camelKey, .text (Vocabulary.word c.severity)),
   (Field.suppressibility.camelKey, .text (Vocabulary.word c.suppressibility)),
   (Field.annotations.camelKey, .ofNames c.annotations),
   (Field.documentSuppression.camelKey, .bool c.documentSuppression),
   (Field.generateExamples.camelKey, .bool c.generateExamples)]

/-- A short description of a check for messages: its name and how severe it is. -/
def literal (c : Check) : String :=
  "<BugPatternDescriptor " ++ Text.quoted c.name ++ " " ++ Vocabulary.word c.severity ++ ">"

/-- Checks sorted by name, as given among equals. -/
def sortByName (checks : List Check) : List Check :=
  checks.mergeSort fun a b => decide (a.name ≤ b.name)

theorem mem_allNames {c : Check} {a : String} : a ∈ c.allNames ↔ a = c.name ∨ a ∈ c.altNames :=
  NameSet.mem_insert

end Check

end CheckRegistry
