import CheckRegistry.Text.Blank
import CheckRegistry.Text.Digit

/-!
# Block markup

A summary is one line of running text.  `hasBlockMarkup` finds what would make it more in a
Markdown page: a line break, a code fence anywhere, or the beginning of a heading, a quotation, a
list item or a thematic break.  A block begins after at most three white space characters, so it
is enough to look at what follows the white space at the beginning.
-/

namespace CheckRegistry.Text

/-- Whether a line ends within the text. -/
def hasLineBreak (s : List Char) : Bool := s.any fun c => c == '\n' || c == '\r'

/-- Whether three backquotes or three tildes follow each other somewhere. -/
def hasFence : List Char → Bool
  | [] => false
  | c :: rest =>
    [['\x60', '\x60', '\x60'], ['~', '~', '~']].any (·.isPrefixOf (c :: rest)) || hasFence rest

/-- Whether the first character, if there is one, is white space. -/
def blankOrEnd : List Char → Bool
  | [] => true
  | c :: _ => isBlank c

/-- Whether the first character is white space. -/
def blankNext : List Char → Bool
  | [] => false
  | c :: _ => isBlank c

/-- One to six number signs, then white space or the end. -/
def isHeading (s : List Char) : Bool :=
  let signs := s.takeWhile (· == '#')
  decide (1 ≤ signs.length ∧ signs.length ≤ 6) && blankOrEnd (s.dropWhile (· == '#'))

/-- A greater-than sign. -/
def isQuotation : List Char → Bool
  | '>' :: _ => true
  | _ => false

/-- A dash, an asterisk or a plus sign, then white space. -/
def isBullet : List Char → Bool
  | c :: rest => (c == '-' || c == '*' || c == '+') && blankNext rest
  | [] => false

/-- Digits, a point or a closing parenthesis, then white space. -/
def isNumbered (s : List Char) : Bool :=
  match s.takeWhile isDigit, s.dropWhile isDigit with
  | [], _ => false
  | _, c :: rest => (c == '.' || c == ')') && blankNext rest
  | _, [] => false

/-- At least three of one of the characters dash, asterisk and underscore, and besides them only
white space. -/
def isThematicBreak (s : List Char) : Bool :=
  match s.filter fun c => !isBlank c with
  | [] => false
  | c :: rest =>
    (c == '-' || c == '*' || c == '_') && rest.all (· == c) && decide (2 ≤ rest.length)

/-- Whether a line begins a block. -/
def beginsBlock (s : List Char) : Bool :=
  let body := s.dropWhile isBlank
  decide ((s.takeWhile isBlank).length ≤ 3) &&
    (isHeading body || isQuotation body || isBullet body || isNumbered body ||
      isThematicBreak body)

/-- Whether a text spans lines or holds markup of its own as a block. -/
def hasBlockMarkup (s : String) : Bool :=
  hasLineBreak s.toList || hasFence s.toList || beginsBlock s.toList

example : hasBlockMarkup "   ## two" = true := rfl
example : hasBlockMarkup "####### seven" = false := rfl
example : hasBlockMarkup "- - -" = true := rfl
example : hasBlockMarkup "a - b" = false := rfl

end CheckRegistry.Text
