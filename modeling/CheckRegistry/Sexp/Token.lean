import CheckRegistry.Text.Blank

/-!
# Tokens of S-expressions

The scanner goes through the characters once and keeps what it is inside of as its `Mode`.  White
space and comments yield no token.  A text that is never closed yields a token of its own at the
end, so that a reader meets it in its place among the others.
-/

namespace CheckRegistry.Sexp

/-- The two shapes of brackets. -/
inductive Shape
  | round
  | square
  deriving DecidableEq, Repr

/-- The bracket that closes a list. -/
def Shape.closer : Shape → Char
  | .round => ')'
  | .square => ']'

/-- What a token is. -/
inductive Token.Kind
  | opening (shape : Shape)
  | closing (shape : Shape)
  | quoteMark
  | text (s : String)
  | atom (s : String)
  /-- The opening quote of a text that does not end. -/
  | openText
  deriving DecidableEq, Repr

/-- A token and the number of characters before it. -/
structure Token where
  kind : Token.Kind
  start : Nat
  deriving DecidableEq, Repr

namespace Token

/-- What the scanner is inside of, with the characters read so far in reverse. -/
inductive Mode
  | between
  | comment
  | text (start : Nat) (read : List Char)
  /-- Within a text, after a backslash. -/
  | textEscape (start : Nat) (read : List Char)
  | atom (start : Nat) (read : List Char)
  /-- Within an atom, after a backslash. -/
  | atomEscape (start : Nat) (read : List Char)

/-- What a backslash and a character stand for within a text, in reverse: an escape for the
characters that have one, and both characters themselves otherwise. -/
def textEscaped (c : Char) : List Char :=
  match c with
  | '\\' => ['\\']
  | '"' => ['"']
  | 'b' => ['\x08']
  | 'f' => ['\x0c']
  | 'n' => ['\n']
  | 'r' => ['\r']
  | 't' => ['\t']
  | c => [c, '\\']

/-- The characters that a backslash within an atom makes ordinary. -/
def escapableInAtom : List Char :=
  ['\\', '\'', '\x60', '"', '(', ')', '[', ']', ' ', ',', '?', ';', '#']

/-- What a backslash and a character stand for within an atom, in reverse. -/
def atomEscaped (c : Char) : List Char := if c ∈ escapableInAtom then [c] else [c, '\\']

/-- Whether a character ends an atom. -/
def endsAtom (c : Char) : Bool :=
  c == '(' || c == ')' || c == '[' || c == ']' || c == '"' || c == ';' || Text.isAsciiBlank c

/-- A character between tokens: the tokens it is, and what begins with it. -/
def between (c : Char) (pos : Nat) : List Token × Mode :=
  match c with
  | '(' => ([⟨.opening .round, pos⟩], .between)
  | '[' => ([⟨.opening .square, pos⟩], .between)
  | ')' => ([⟨.closing .round, pos⟩], .between)
  | ']' => ([⟨.closing .square, pos⟩], .between)
  | '\'' => ([⟨.quoteMark, pos⟩], .between)
  | '"' => ([], .text pos [])
  | ';' => ([], .comment)
  | '\\' => ([], .atomEscape pos [])
  | c => if Text.isAsciiBlank c then ([], .between) else ([], .atom pos [c])

/-- One character: the tokens it completes, and the mode after it. -/
def step (mode : Mode) (c : Char) (pos : Nat) : List Token × Mode :=
  match mode with
  | .between => between c pos
  | .comment => ([], if c = '\n' then .between else .comment)
  | .text start read =>
    if c = '"' then ([⟨.text (String.ofList read.reverse), start⟩], .between)
    else if c = '\\' then ([], .textEscape start read)
    else ([], .text start (c :: read))
  | .textEscape start read => ([], .text start (textEscaped c ++ read))
  | .atom start read =>
    if endsAtom c then
      (⟨.atom (String.ofList read.reverse), start⟩ :: (between c pos).1, (between c pos).2)
    else if c = '\\' then ([], .atomEscape start read)
    else ([], .atom start (c :: read))
  | .atomEscape start read => ([], .atom start (atomEscaped c ++ read))

/-- The tokens that the end of the characters completes. -/
def finish : Mode → List Token
  | .between | .comment => []
  | .text start _ | .textEscape start _ => [⟨.openText, start⟩]
  | .atom start read => [⟨.atom (String.ofList read.reverse), start⟩]
  | .atomEscape start read => [⟨.atom (String.ofList ('\\' :: read).reverse), start⟩]

/-- The tokens of a sequence of characters that begins in a mode and at a position. -/
def scanFrom (mode : Mode) (pos : Nat) : List Char → List Token
  | [] => finish mode
  | c :: rest => (step mode c pos).1 ++ scanFrom (step mode c pos).2 (pos + 1) rest

/-- The tokens of a sequence of characters. -/
def scan (s : List Char) : List Token := scanFrom .between 0 s

end Token

end CheckRegistry.Sexp
