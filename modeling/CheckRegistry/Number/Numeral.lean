import CheckRegistry.Number.Binary64
import CheckRegistry.Text.Blank
import CheckRegistry.Text.Digit

/-!
# Numerals

An atom that reads as a number is one.  White space around a numeral is ignored, digits may come
from any script, and single underscores may stand between digits.  An integer is a sign and
digits.  A decimal has a point, an exponent or both, and the words for infinity and for
not-a-number are read in any case.
-/

namespace CheckRegistry

/-- A number as a text denotes it. -/
inductive Numeral
  | int (value : Int)
  | float (value : Binary64)
  deriving DecidableEq, Repr

namespace Numeral

/-- An integer numeral has at most this many digits; a longer one is read as a decimal. -/
def maxIntDigits : Nat := 4300

/-- The character that a numeral is read with: digits of all scripts become ASCII digits, white
space outside ASCII becomes a space, and any other character outside ASCII spoils the numeral. -/
def plainChar? (c : Char) : Option Char :=
  if c.toNat < 0x7f then some c
  else if Text.isBlank c then some ' '
  else (Text.digit? c).map Text.asciiDigit

/-- The characters of a numeral, white space around it removed. -/
def plain? (s : String) : Option (List Char) :=
  (s.toList.mapM plainChar?).map (Text.dropBothWhile Text.isAsciiBlank)

/-- Splits a leading sign off; the first component says whether it is a minus. -/
def splitSign : List Char → Bool × List Char
  | '-' :: rest => (true, rest)
  | '+' :: rest => (false, rest)
  | rest => (false, rest)

/-- Removes underscores, each of which has to stand between two digits.  `afterDigit` says
whether a digit came just before. -/
def dropUnderscores (afterDigit : Bool) : List Char → Option (List Char)
  | [] => some []
  | '_' :: c :: rest =>
    if afterDigit && c.isDigit then (c :: ·) <$> dropUnderscores true rest else none
  | c :: rest => if c = '_' then none else (c :: ·) <$> dropUnderscores c.isDigit rest

/-- The value of a sequence of ASCII digits. -/
def digitsValue (digits : List Char) : Nat :=
  digits.foldl (fun n c => 10 * n + (c.toNat - '0'.toNat)) 0

/-- Reads an integer. -/
def int? (s : List Char) : Option Int :=
  match dropUnderscores false (splitSign s).2 with
  | none => none
  | some digits =>
    if digits.isEmpty || !digits.all Char.isDigit || digits.length > maxIntDigits then none
    else
      let n := digitsValue digits
      some (if (splitSign s).1 then -(n : Int) else (n : Int))

/-- Reads the exponent of a decimal: nothing, or an `e`, a sign and digits. -/
def exponent? : List Char → Option Int
  | [] => some 0
  | c :: rest =>
    let (negative, digits) := splitSign rest
    if (c = 'e' ∨ c = 'E') ∧ !digits.isEmpty ∧ digits.all Char.isDigit then
      let n := digitsValue digits
      some (if negative then -(n : Int) else (n : Int))
    else none

/-- Reads a decimal without sign: digits with at most one point among them, at least one digit,
and an exponent. -/
def decimal? (negative : Bool) (s : List Char) : Option Binary64 :=
  let whole := s.takeWhile Char.isDigit
  let rest := s.dropWhile Char.isDigit
  let (part, rest) :=
    match rest with
    | '.' :: rest => (rest.takeWhile Char.isDigit, rest.dropWhile Char.isDigit)
    | rest => ([], rest)
  if whole.isEmpty && part.isEmpty then none
  else
    (exponent? rest).map fun e =>
      Binary64.ofDecimal negative (digitsValue (whole ++ part)) (e - part.length)

/-- Reads a decimal, an infinity or not-a-number. -/
def float? (s : List Char) : Option Binary64 :=
  match dropUnderscores false s with
  | none => none
  | some s =>
    let (negative, body) := splitSign s
    match String.ofList (body.map Char.toLower) with
    | "inf" | "infinity" => some (.infinite negative)
    | "nan" => some .nan
    | _ => decimal? negative body

/-- Reads a text as a number, an integer if it can be one. -/
def ofText? (s : String) : Option Numeral :=
  match plain? s with
  | none => none
  | some chars =>
    match int? chars with
    | some i => some (.int i)
    | none => (float? chars).map .float

end Numeral

end CheckRegistry
