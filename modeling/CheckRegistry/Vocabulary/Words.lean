import CheckRegistry.Vocabulary.Basic

/-!
# The words of a check

The vocabularies that declarations draw on: how severe a finding is, how its link comes about,
whether there is a fix, how a finding is suppressed, a category kept for old declarations, and
what a check does with an example.
-/

namespace CheckRegistry

/-- How severe a finding is. -/
inductive Severity
  | error
  | warning
  | suggestion
  deriving DecidableEq, Repr

/-- Where the link shown with a finding leads. -/
inductive LinkType
  /-- To the check's page on the documentation site. -/
  | autogenerated
  /-- To the link that the check declares. -/
  | custom
  /-- There is no link. -/
  | none
  deriving DecidableEq, Repr

/-- Whether a check comes with a fix. -/
inductive Fix
  | noFix
  | requiresHumanAttention
  deriving DecidableEq, Repr

/-- A classification of old declarations.  It is kept with the check and changes nothing. -/
inductive Category
  | jdk
  | guava
  | guice
  | dagger
  | junit
  | oneOff
  | inject
  | mockito
  | jmock
  | android
  | protobuf
  | truth
  deriving DecidableEq, Repr

/-- By what means a finding can be suppressed. -/
inductive Suppressibility
  /-- By naming the check in a suppression at the site or around it. -/
  | suppressWarnings
  /-- By one of the annotation types that the check declares. -/
  | customAnnotations
  /-- Not at all. -/
  | unsuppressible
  deriving DecidableEq, Repr

/-- What a check does with an example. -/
inductive Outcome
  /-- The check flags it. -/
  | positive
  /-- The check leaves it alone. -/
  | negative
  deriving DecidableEq, Repr

instance : Vocabulary Severity where
  title := "SeverityLevel"
  members := [.error, .warning, .suggestion]
  word
    | .error => "ERROR"
    | .warning => "WARNING"
    | .suggestion => "SUGGESTION"

instance : Vocabulary LinkType where
  title := "LinkType"
  members := [.autogenerated, .custom, .none]
  word
    | .autogenerated => "AUTOGENERATED"
    | .custom => "CUSTOM"
    | .none => "NONE"

instance : Vocabulary Fix where
  title := "ProvidesFix"
  members := [.noFix, .requiresHumanAttention]
  word
    | .noFix => "NO_FIX"
    | .requiresHumanAttention => "REQUIRES_HUMAN_ATTENTION"

instance : Vocabulary Category where
  title := "Category"
  members := [.jdk, .guava, .guice, .dagger, .junit, .oneOff, .inject, .mockito, .jmock, .android,
    .protobuf, .truth]
  word
    | .jdk => "JDK"
    | .guava => "GUAVA"
    | .guice => "GUICE"
    | .dagger => "DAGGER"
    | .junit => "JUNIT"
    | .oneOff => "ONE_OFF"
    | .inject => "INJECT"
    | .mockito => "MOCKITO"
    | .jmock => "JMOCK"
    | .android => "ANDROID"
    | .protobuf => "PROTOBUF"
    | .truth => "TRUTH"

instance : Vocabulary Suppressibility where
  title := "Suppressibility"
  members := [.suppressWarnings, .customAnnotations, .unsuppressible]
  word
    | .suppressWarnings => "SUPPRESS_WARNINGS"
    | .customAnnotations => "CUSTOM_ANNOTATION"
    | .unsuppressible => "UNSUPPRESSIBLE"

instance : Vocabulary Outcome where
  title := "Outcome"
  members := [.positive, .negative]
  word
    | .positive => "POSITIVE"
    | .negative => "NEGATIVE"

/-- A word of any of the vocabularies. -/
inductive Word
  | severity (w : Severity)
  | linkType (w : LinkType)
  | fix (w : Fix)
  | category (w : Category)
  | suppressibility (w : Suppressibility)
  | outcome (w : Outcome)
  deriving DecidableEq, Repr

namespace Word

/-- The vocabulary that a word belongs to. -/
def title : Word → String
  | .severity _ => Vocabulary.title Severity
  | .linkType _ => Vocabulary.title LinkType
  | .fix _ => Vocabulary.title Fix
  | .category _ => Vocabulary.title Category
  | .suppressibility _ => Vocabulary.title Suppressibility
  | .outcome _ => Vocabulary.title Outcome

/-- The upper case spelling of a word. -/
def spelling : Word → String
  | .severity w => Vocabulary.word w
  | .linkType w => Vocabulary.word w
  | .fix w => Vocabulary.word w
  | .category w => Vocabulary.word w
  | .suppressibility w => Vocabulary.word w
  | .outcome w => Vocabulary.word w

/-- All words of all vocabularies. -/
def all : List Word :=
  Vocabulary.members.map severity ++ Vocabulary.members.map linkType ++
    Vocabulary.members.map fix ++ Vocabulary.members.map category ++
    Vocabulary.members.map suppressibility ++ Vocabulary.members.map outcome

/-- How a message shows a word. -/
def literal (w : Word) : String :=
  "<" ++ w.title ++ "." ++ w.spelling ++ ": '" ++ w.spelling.toLower ++ "'>"

/-- The word with a given vocabulary and spelling. -/
def ofSpelling? (title spelling : String) : Option Word :=
  all.find? fun w => w.title == title && w.spelling == spelling

end Word

end CheckRegistry
