import CheckRegistry.Text.Printable
import CheckRegistry.Text.Hex

/-!
# Quoted texts

Messages show the texts they complain about in quotes, so that white space and characters one
cannot see are visible.  The single quote is used unless the text holds a single quote and no
double quote.  A backslash, the quote in use and the three common control characters have short
escapes; any other character that is not printable is written by its code point.
-/

namespace CheckRegistry.Text

/-- The quote in which a text is shown. -/
def quoteFor (s : List Char) : Char :=
  if s.contains '\'' && !s.contains '"' then '"' else '\''

/-- The escape of a code point, in the shortest of the three widths that holds it. -/
def codePointEscape (n : Nat) : List Char :=
  if n < 0x100 then '\\' :: 'x' :: hex 2 n
  else if n < 0x10000 then '\\' :: 'u' :: hex 4 n
  else '\\' :: 'U' :: hex 8 n

/-- What stands for one character between the quotes. -/
def quotedChar (quote c : Char) : List Char :=
  if c = quote ∨ c = '\\' then ['\\', c]
  else if c = '\n' then ['\\', 'n']
  else if c = '\r' then ['\\', 'r']
  else if c = '\t' then ['\\', 't']
  else if isPrintable c then [c]
  else codePointEscape c.toNat

/-- The characters of a quoted text, quotes included. -/
def quotedChars (s : List Char) : List Char :=
  let quote := quoteFor s
  quote :: (s.flatMap (quotedChar quote) ++ [quote])

/-- The text in quotes. -/
def quoted (s : String) : String := String.ofList (quotedChars s.toList)

/-- What stands for one byte in a quoted byte string: printable ASCII stands for itself. -/
def quotedByte (quote : Char) (b : UInt8) : List Char :=
  let c := Char.ofNat b.toNat
  if c = quote ∨ c = '\\' then ['\\', c]
  else if c = '\n' then ['\\', 'n']
  else if c = '\r' then ['\\', 'r']
  else if c = '\t' then ['\\', 't']
  else if 0x20 ≤ b.toNat ∧ b.toNat < 0x7f then [c]
  else '\\' :: 'x' :: hex 2 b.toNat

/-- A byte string in quotes, marked by a leading `b`. -/
def quotedBytes (bytes : List UInt8) : String :=
  let quote := quoteFor (bytes.map fun b => Char.ofNat b.toNat)
  String.ofList ('b' :: quote :: (bytes.flatMap (quotedByte quote) ++ [quote]))

example : quoted "it's" = "\"it's\"" := rfl
example : quoted "a\tb\\" = "'a\\tb\\\\'" := rfl
example : quoted "\u00a0" = "'\\xa0'" := rfl

end CheckRegistry.Text
