import CheckRegistry.Check.Record
import CheckRegistry.Sexp.Reader
import CheckRegistry.Value.Literal

/-!
# Declarations

A declaration file is a sequence of forms `(bugpattern (key value ...) ...)`, one for each check.
`Declaration.parse` turns its text into records.  It judges the shape of the forms only; what the
values are worth is judged when a check is made of a record.
-/

namespace CheckRegistry

namespace Declaration

/-- The symbol at the head of each form. -/
def head : String := "bugpattern"

/-- What is wrong with a form. -/
inductive FormFault
  /-- It is no list with the right head. -/
  | notForm
  /-- An entry is no list with a key at its head. -/
  | badEntry (entry : Value)
  | repeatedKey (key : String)
  deriving DecidableEq

/-- The wording of a fault. -/
def FormFault.message : FormFault → String
  | .notForm => "expected (" ++ head ++ " ...)"
  | .badEntry entry => "expected (key value...), got " ++ entry.literal
  | .repeatedKey key => "key " ++ Text.quoted key ++ " given more than once"

/-- Why a text does not hold declarations. -/
inductive ParseError
  /-- It is not a sequence of S-expressions. -/
  | unreadable (source : String) (e : Sexp.ReadError)
  /-- It holds an expression that no declaration has. -/
  | unsupported (x : Sexp)
  /-- One of its forms, counted from one, is no declaration. -/
  | badForm (source : String) (position : Nat) (fault : FormFault)
  deriving DecidableEq

namespace ParseError

/-- Where the error is: in a source, in a form of a source, or nowhere in particular. -/
def place : ParseError → String
  | .unreadable source _ => source
  | .unsupported _ => ""
  | .badForm source position _ => s!"{source}: form {position}"

/-- What is wrong there. -/
def reason : ParseError → String
  | .unreadable _ e => "failed to parse S-expressions: " ++ e.message
  | .unsupported x => "unsupported S-expression value " ++ x.literal
  | .badForm _ _ fault => fault.message

/-- The wording of the error. -/
def message (e : ParseError) : String := labelled e.place e.reason

end ParseError

/-- The words for on and off in a declaration. -/
def switchWord? (s : String) : Option Bool :=
  let word := Text.lower s
  if ["true", "#t", "yes"].contains word then some true
  else if ["false", "#f", "no"].contains word then some false
  else none

/-- The value of an entry.  A field that takes several values gets all of them as a list.  Any
other gets its single value, with a word for on or off read as such if the field is a switch; a
wrong number of values is kept as a list, which the field will refuse. -/
def entryValue (field : Option Field) (values : List Value) : Value :=
  if field.any Field.isMulti then .list values
  else
    match values with
    | [.text s] =>
      if field.any Field.isSwitch then
        match switchWord? s with
        | some b => .bool b
        | none => .text s
      else .text s
    | [v] => v
    | values => .list values

/-- Adds the entries of a form to a record. -/
def addEntries (record : Record) : List Value → Except FormFault Record
  | [] => .ok record
  | .list (.text key :: values) :: rest =>
    if (record.lookup key).isSome then .error (.repeatedKey key)
    else addEntries (record ++ [(key, entryValue (Field.ofKey? key) values)]) rest
  | entry :: _ => .error (.badEntry entry)

/-- The record of a form. -/
def ofForm : Value → Except FormFault Record
  | .list (.text s :: entries) => if s = head then addEntries [] entries else .error .notForm
  | _ => .error .notForm

/-- The records of a sequence of forms, of which the first has the given position. -/
def ofForms (source : String) (position : Nat) : List Value → Except ParseError (List Record)
  | [] => .ok []
  | form :: rest =>
    match ofForm form with
    | .error fault => .error (.badForm source position fault)
    | .ok record => (record :: ·) <$> ofForms source (position + 1) rest

/-- The text put into a list of its own, so that its forms can be read as one expression.  The
line breaks end a comment on the last line. -/
def wrapped (text : String) : List Char := '(' :: '\n' :: (text.toList ++ ['\n', ')'])

/-- The forms of a text. -/
def forms (text source : String) : Except ParseError (List Value) :=
  match Sexp.readOne (wrapped text) with
  | .error e => .error (.unreadable source e)
  | .ok x =>
    match x.toValue with
    | .error y => .error (.unsupported y)
    | .ok (.list items) => .ok items
    | .ok v => .ok [v]

/-- The records that a text declares.  The source names the text in errors. -/
def parse (text source : String) : Except ParseError (List Record) := do
  let items ← forms text source
  ofForms source 1 items

end Declaration

end CheckRegistry
