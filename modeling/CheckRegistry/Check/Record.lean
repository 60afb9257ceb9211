import CheckRegistry.Check.Basic
import CheckRegistry.Violation

/-!
# Checks from records

A record is a list of keys and values, as a declaration or a program gives them.  `Check.ofRecord`
turns it into a check or says which key is at fault.  Keys are looked at first, in the order of
the record; then the required fields; then the values, in a fixed order of fields.
-/

namespace CheckRegistry

/-- A declaration before it is judged: keys in any spelling, with their values. -/
abbrev Record := List (String × Value)

/-- What is wrong with a record at one key. -/
inductive Fault
  | unknownField
  | repeated
  | missing
  /-- The value is of another kind than text. -/
  | notText (kind : String)
  /-- The value is of another kind than a truth value. -/
  | notBool (kind : String)
  /-- The text is no word of the field's vocabulary. -/
  | unknownWord (text choices : String)
  /-- The value is neither a text nor a word of the field's vocabulary. -/
  | notWord (vocabulary kind : String)
  /-- The value is not a collection of texts. -/
  | notCollection (kind : String)
  /-- The collection has an item that is no text. -/
  | notTextItem (kind : String)
  deriving DecidableEq, Repr

/-- The wording of a fault. -/
def Fault.message : Fault → String
  | .unknownField => "unknown descriptor field"
  | .repeated => "given more than once"
  | .missing => "is required"
  | .notText kind => "expected a string, got " ++ kind
  | .notBool kind => "expected a boolean, got " ++ kind
  | .unknownWord text choices =>
    "unknown value " ++ Text.quoted text ++ " (expected one of " ++ choices ++ ")"
  | .notWord vocabulary kind => "expected " ++ vocabulary ++ ", got " ++ kind
  | .notCollection kind => "expected a collection of strings, got " ++ kind
  | .notTextItem kind => "entries must be strings, got " ++ kind

/-- The error of a record that does not describe a check. -/
structure Malformed where
  /-- The key or field at fault. -/
  field : String
  fault : Fault
  /-- The declared name. -/
  check : String
  deriving DecidableEq, Repr

namespace Malformed

/-- The field and the wording of the fault. -/
def reason (e : Malformed) : String := e.field ++ ": " ++ e.fault.message

/-- The wording of the error. -/
def message (e : Malformed) : String := labelled e.check e.reason

/-- The error as a violation. -/
def violation (e : Malformed) : Violation := ⟨.malformed, e.field, e.reason, .fatal⟩

end Malformed

namespace Value

/-- Reads a text. -/
def asText : Value → Except Fault String
  | .text s => .ok s
  | v => .error (.notText v.kind)

/-- Reads a text that may be left open. -/
def asOptionalText : Value → Except Fault String
  | .none => .ok ""
  | v => v.asText

/-- Reads a truth value. -/
def asBool : Value → Except Fault Bool
  | .bool b => .ok b
  | v => .error (.notBool v.kind)

/-- Reads a word of a vocabulary, given as such or spelled out. -/
def asWord {α : Type} [Vocabulary α] (ofWord : Word → Option α) : Value → Except Fault α
  | .text s =>
    match Vocabulary.read? s with
    | some a => .ok a
    | Option.none => .error (.unknownWord s (Vocabulary.choices α))
  | .word w =>
    match ofWord w with
    | some a => .ok a
    | Option.none => .error (.notWord (Vocabulary.title α) w.title)
  | v => .error (.notWord (Vocabulary.title α) v.kind)

/-- Reads items that all have to be texts. -/
def textItems : List Value → Except Fault (List String)
  | [] => .ok []
  | .text s :: rest => (s :: ·) <$> textItems rest
  | v :: _ => .error (.notTextItem v.kind)

/-- Reads a collection of texts.  A bare text is refused: it is no collection of its characters. -/
def asNames (v : Value) : Except Fault NameSet :=
  match v with
  | .none => .ok ∅
  | .text _ | .bytes _ => .error (.notCollection v.kind)
  | v =>
    match v.items? with
    | Option.none => .error (.notCollection v.kind)
    | some items => NameSet.ofList <$> textItems items

end Value

namespace Record

/-- The name under which errors report a record that may lack a proper name. -/
def unnamed : String := "<unnamed>"

/-- The declared name, if it is a text. -/
def label (r : Record) : String :=
  match r.lookup "name" with
  | some (.text s) => s
  | _ => unnamed

/-- The declared name, if it is a text that is not empty. -/
def declaredName (r : Record) : String := if r.label.isEmpty then unnamed else r.label

/-- Assigns the values of a record to fields.  `seen` holds what came before. -/
def assign (label : String) (seen : List (Field × Value)) :
    Record → Except Malformed (List (Field × Value))
  | [] => .ok seen
  | (key, v) :: rest =>
    match Field.ofKey? key with
    | none => .error ⟨key, .unknownField, label⟩
    | some f =>
      if (seen.lookup f).isSome then .error ⟨key, .repeated, label⟩
      else assign label (seen ++ [(f, v)]) rest

/-- The first required field without a value. -/
def missing? (values : List (Field × Value)) : Option Field :=
  Field.required.find? fun f => (values.lookup f).isNone

end Record

namespace Check

/-- Reads the value of one field, or takes its default when the record has none. -/
def readField {α : Type} (label : String) (values : List (Field × Value)) (f : Field)
    (default : α) (read : Value → Except Fault α) : Except Malformed α :=
  match values.lookup f with
  | none => .ok default
  | some v => (read v).mapError fun fault => ⟨f.key, fault, label⟩

/-- Reads the values of all fields.  The name comes first, then whether there is a severity at
all, then the other fields. -/
def ofValues (label : String) (values : List (Field × Value)) : Except Malformed Check := do
  let name ← readField label values .name "" Value.asText
  if let some .none := values.lookup .severity then
    throw ⟨Field.severity.key, .missing, label⟩
  let summary ← readField label values .summary "" Value.asText
  let severity ← readField label values .severity .error
    (Value.asWord fun | .severity w => some w | _ => none)
  let altNames ← readField label values .altNames ∅ Value.asNames
  let linkType ← readField label values .linkType .autogenerated
    (Value.asWord fun | .linkType w => some w | _ => none)
  let link ← readField label values .link "" Value.asOptionalText
  let tags ← readField label values .tags ∅ Value.asNames
  let fix ← readField label values .fix .noFix
    (Value.asWord fun | .fix w => some w | _ => none)
  let category ← readField label values .category .oneOff
    (Value.asWord fun | .category w => some w | _ => none)
  let explanation ← readField label values .explanation "" Value.asOptionalText
  let suppressibility ← readField label values .suppressibility .suppressWarnings
    (Value.asWord fun | .suppressibility w => some w | _ => none)
  let annotations ← readField label values .annotations ∅ Value.asNames
  let documentSuppression ← readField label values .documentSuppression true Value.asBool
  let generateExamples ← readField label values .generateExamples true Value.asBool
  return { name, summary, severity, altNames, linkType, link, tags, fix, category, explanation,
           suppressibility, annotations, documentSuppression, generateExamples }

/-- The check that a record describes. -/
def ofRecord (r : Record) : Except Malformed Check := do
  let label := r.label
  let values ← r.assign label []
  match Record.missing? values with
  | some f => throw ⟨f.key, .missing, label⟩
  | none => ofValues label values

end Check

end CheckRegistry
