/-!
# Fields of a check and their spellings

A field is named by a few words.  A declaration may join them with underscores, with dashes, or
by capitals.  `Field.canonicalKey` brings a key into the spelling with underscores, whether or
not the key names a field.
-/

namespace CheckRegistry

/-- The fields that a check declares. -/
inductive Field
  | name
  | summary
  | severity
  | altNames
  | linkType
  | link
  | tags
  | fix
  | category
  | explanation
  | suppressibility
  | annotations
  | documentSuppression
  | generateExamples
  deriving DecidableEq, Repr

namespace Field

/-- All fields. -/
def all : List Field :=
  [.name, .summary, .severity, .altNames, .linkType, .link, .tags, .fix, .category, .explanation,
   .suppressibility, .annotations, .documentSuppression, .generateExamples]

/-- The words of a field's name. -/
def words : Field → List String
  | .name => ["name"]
  | .summary => ["summary"]
  | .severity => ["severity"]
  | .altNames => ["alt", "names"]
  | .linkType => ["link", "type"]
  | .link => ["link"]
  | .tags => ["tags"]
  | .fix => ["provides", "fix"]
  | .category => ["category"]
  | .explanation => ["explanation"]
  | .suppressibility => ["suppressibility"]
  | .annotations => ["custom", "suppression", "annotations"]
  | .documentSuppression => ["document", "suppression"]
  | .generateExamples => ["generate", "examples", "from", "test", "cases"]

/-- The spelling with underscores, which messages use. -/
def key (f : Field) : String := "_".intercalate f.words

/-- The spelling with dashes. -/
def dashedKey (f : Field) : String := "-".intercalate f.words

/-- The spelling with a capital at the start of each word but the first. -/
def camelKey (f : Field) : String :=
  match f.words with
  | [] => ""
  | first :: rest => first ++ String.join (rest.map String.capitalize)

/-- Replaces dashes by underscores. -/
def underscored (s : String) : String :=
  String.ofList (s.toList.map fun c => if c = '-' then '_' else c)

/-- The spelling of a key with underscores. -/
def canonicalKey (k : String) : String :=
  match all.find? fun f => f.camelKey == k with
  | some f => f.key
  | none => underscored k

/-- The field that a key names, in any of its spellings. -/
def ofKey? (k : String) : Option Field := all.find? fun f => f.key == canonicalKey k

/-- Fields that a check cannot do without, in the order in which they are missed. -/
def required : List Field := [.name, .summary, .severity]

/-- Whether a declaration may give a field several values, or none. -/
def isMulti : Field → Bool
  | .altNames | .tags | .annotations => true
  | _ => false

/-- Whether a field is a switch. -/
def isSwitch : Field → Bool
  | .documentSuppression | .generateExamples => true
  | _ => false

end Field

end CheckRegistry
