import CheckRegistry.Sexp.Basic
import CheckRegistry.Sexp.Token

/-!
# Reading S-expressions

The reader keeps the lists and quotations it is inside of as a stack of frames, each with the
expressions already read in it.  A bracket closes the innermost list.  A quote mark applies to
the next expression of its list, but what follows it stays open until the list closes, so a quote
mark without an expression is noticed only there.
-/

namespace CheckRegistry.Sexp

/-- Why a text is not a sequence of S-expressions, or not one. -/
inductive ReadError
  /-- A text in quotes does not end. -/
  | openText
  /-- Nothing follows the quote mark at this position. -/
  | emptyQuote (position : Nat)
  /-- A list is closed by another bracket than its own, or not at all. -/
  | unclosed (shape : Shape) (got : Option Char)
  /-- A bracket closes nothing; the rest of the text begins with it. -/
  | surplus (rest : String)
  /-- There is no expression, or there are several. -/
  | notOne
  deriving DecidableEq, Repr

/-- The wording of a reading error. -/
def ReadError.message : ReadError → String
  | .openText => "'NoneType' object has no attribute 'start'"
  | .emptyQuote position => s!"No s-exp is found after an apostrophe at position {position}"
  | .unclosed shape got =>
    "Not enough closing brackets. Expected " ++ Text.quoted (String.singleton shape.closer) ++
      " to be the last letter in the sexp. Got: " ++
      (match got with
      | some c => Text.quoted (String.singleton c)
      | none => "None")
  | .surplus rest =>
    "Too many closing brackets. Expected no character left in the sexp. Got: " ++ Text.quoted rest
  | .notOne => ""

/-- What a frame is the inside of. -/
inductive Frame.Kind
  | list (shape : Shape)
  /-- The quote mark at a position. -/
  | quotation (position : Nat)

/-- A list or quotation that is being read, with its expressions so far in reverse. -/
structure Frame where
  kind : Frame.Kind
  read : List Sexp

/-- Where the reader is: the frames from the innermost outwards, and the expressions read outside
of all frames, in reverse. -/
structure Reader where
  frames : List Frame
  outside : List Sexp

namespace Reader

/-- The reader before the first token. -/
def start : Reader := ⟨[], []⟩

/-- Adds expressions, given in reverse, to the innermost frame. -/
def add (r : Reader) (xs : List Sexp) : Reader :=
  match r.frames with
  | [] => { r with outside := xs ++ r.outside }
  | frame :: outer => { r with frames := { frame with read := xs ++ frame.read } :: outer }

/-- Enters a frame. -/
def enter (r : Reader) (kind : Frame.Kind) : Reader := { r with frames := ⟨kind, []⟩ :: r.frames }

/-- The expressions of a quotation, in reverse: the first is quoted, the others follow as they
are. -/
def quoteFirst : List Sexp → List Sexp
  | [] => []
  | [x] => [.quoted x]
  | x :: rest => x :: quoteFirst rest

/-- Leaves the quotations around the current place up to the innermost list.  The result holds the
expressions of that list, in reverse, with its shape and the frames around it, or the expressions
that belong outside of all frames.  `xs` came from further inside. -/
def leaveQuotations (xs : List Sexp) :
    List Frame → Except ReadError (List Sexp × Option (Shape × List Frame))
  | [] => .ok (xs, none)
  | ⟨.list shape, read⟩ :: outer => .ok (xs ++ read, some (shape, outer))
  | ⟨.quotation position, read⟩ :: outer =>
    match xs ++ read with
    | [] => .error (.emptyQuote position)
    | x :: rest => leaveQuotations (quoteFirst (x :: rest)) outer

/-- The list expression of a bracket shape. -/
def listOf (shape : Shape) (items : List Sexp) : Sexp :=
  match shape with
  | .round => .list items
  | .square => .brackets items

/-- Closes the innermost list.  `rest` gives the text from the bracket on. -/
def close (r : Reader) (shape : Shape) (rest : String) : Except ReadError Reader :=
  match leaveQuotations [] r.frames with
  | .error e => .error e
  | .ok (_, none) => .error (.surplus rest)
  | .ok (items, some (own, outer)) =>
    if own = shape then .ok (add ⟨outer, r.outside⟩ [listOf own items.reverse])
    else .error (.unclosed own (some shape.closer))

/-- Takes one token of the text `s`. -/
def take (s : List Char) (r : Reader) (t : Token) : Except ReadError Reader :=
  match t.kind with
  | .opening shape => .ok (r.enter (.list shape))
  | .closing shape => r.close shape (String.ofList (s.drop t.start))
  | .quoteMark => .ok (r.enter (.quotation t.start))
  | .text str => .ok (r.add [.text str])
  | .atom str => .ok (r.add [ofAtom str])
  | .openText => .error .openText

/-- The expressions read when the text is at its end. -/
def finish (r : Reader) : Except ReadError (List Sexp) :=
  match leaveQuotations [] r.frames with
  | .error e => .error e
  | .ok (xs, none) => .ok (xs ++ r.outside).reverse
  | .ok (_, some (shape, _)) => .error (.unclosed shape none)

end Reader

/-- Reads a text as a sequence of expressions. -/
def readAll (s : List Char) : Except ReadError (List Sexp) := do
  let r ← (Token.scan s).foldlM (Reader.take s) Reader.start
  r.finish

/-- Reads a text as one expression. -/
def readOne (s : List Char) : Except ReadError Sexp :=
  match readAll s with
  | .ok [x] => .ok x
  | .ok _ => .error .notOne
  | .error e => .error e

end CheckRegistry.Sexp
