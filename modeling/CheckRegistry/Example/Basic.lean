import CheckRegistry.Label
import CheckRegistry.Value.Literal

/-!
# Documentation examples

An example is a snippet of code, what the check does with it, and where it comes from.  Providers
may hand over anything; `Example.ofValue` accepts what goes through as two or three items of the
right kinds and says what is wrong with all else.
-/

namespace CheckRegistry

/-- A snippet of code that a check flags or leaves alone. -/
structure Example where
  snippet : String
  outcome : Outcome
  /-- The fixture that the snippet comes from, or nothing. -/
  source : String
  deriving DecidableEq, Repr

namespace Example

/-- What is wrong with something that should be an example. -/
inductive Fault
  /-- One cannot go through it. -/
  | notIterable (kind : String)
  /-- It has fewer than two items. -/
  | tooFew (count : Nat)
  /-- It has more than three items, or its snippet is no text. -/
  | badShape (item : Value)
  /-- Its source is no text. -/
  | badSource (source : Value)
  | unknownOutcome (outcome : Value)

/-- The wording of a fault. -/
def Fault.message : Fault → String
  | .notIterable kind => "cannot unpack non-iterable " ++ kind ++ " object"
  | .tooFew count => s!"not enough values to unpack (expected at least 2, got {count})"
  | .badShape item => "expected (snippet, outcome[, source]), got " ++ item.literal
  | .badSource source => "example source must be a string, got " ++ source.literal
  | .unknownOutcome outcome => "unknown example outcome " ++ outcome.literal

/-- The error of something that is no example, with the check that it was meant for. -/
structure Malformed where
  check : String
  fault : Fault

/-- The wording of the error. -/
def Malformed.message (e : Malformed) : String :=
  labelled e.check ("malformed example: " ++ e.fault.message)

/-- Reads an outcome: a word of its vocabulary, or its lower case spelling in any case. -/
def outcome? : Value → Option Outcome
  | .word (.outcome o) => some o
  | .text s =>
    let key := Text.lower (Text.trim s)
    Vocabulary.members.find? fun o => key == Vocabulary.lowerWord o
  | _ => none

/-- Reads a source, which may be missing. -/
def readSource : List Value → Except Fault String
  | [] => .ok ""
  | .text s :: _ => .ok s
  | v :: _ => .error (.badSource v)

/-- Reads the items of a value as an example: first how many they are and the snippet, then the
source, then the outcome. -/
def ofItems (item : Value) : List Value → Except Fault Example
  | snippet :: outcome :: rest =>
    match snippet, decide (rest.length ≤ 1) with
    | .text s, true =>
      match readSource rest with
      | .error e => .error e
      | .ok src =>
        match outcome? outcome with
        | some o => .ok ⟨s, o, src⟩
        | none => .error (.unknownOutcome outcome)
    | _, _ => .error (.badShape item)
  | items => .error (.tooFew items.length)

/-- Reads a value as an example of a check. -/
def ofValue (item : Value) (check : String) : Except Malformed Example :=
  let read : Except Fault Example :=
    match item.items? with
    | none => .error (.notIterable item.kind)
    | some items => ofItems item items
  read.mapError fun fault => ⟨check, fault⟩

/-- An example as a value. -/
def toValue (e : Example) : Value :=
  .sample (.text e.snippet) (.word (.outcome e.outcome)) (.text e.source)

/-- The examples of a list of values; the first malformed one is an error. -/
def ofValues (check : String) : List Value → Except Malformed (List Example)
  | [] => .ok []
  | item :: rest => do
    let e ← ofValue item check
    let es ← ofValues check rest
    return e :: es

end Example

end CheckRegistry
