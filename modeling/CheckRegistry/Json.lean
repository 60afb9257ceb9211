import CheckRegistry.Text.Hex

/-!
# JSON output

Listings and the front matter of pages are written as JSON in ASCII.  In a string the quote, the
backslash and the control characters are escaped, and so is everything above ASCII, by one code
unit of UTF-16 or two.
-/

namespace CheckRegistry

/-- A JSON value, as far as listings need one. -/
inductive Json
  | null
  | bool (b : Bool)
  | text (s : String)
  | list (items : List Json)
  /-- Members in the order in which they are written. -/
  | object (members : List (String × Json))
  deriving Inhabited

namespace Json

/-- The escape of one code unit. -/
def unitEscape (n : Nat) : List Char := '\\' :: 'u' :: Text.hex 4 n

/-- What stands for a character within a string. -/
def charText (c : Char) : List Char :=
  if c = '"' then ['\\', '"']
  else if c = '\\' then ['\\', '\\']
  else if c = '\x08' then ['\\', 'b']
  else if c = '\x0c' then ['\\', 'f']
  else if c = '\n' then ['\\', 'n']
  else if c = '\r' then ['\\', 'r']
  else if c = '\t' then ['\\', 't']
  else if 0x20 ≤ c.toNat ∧ c.toNat < 0x7f then [c]
  else if c.toNat < 0x10000 then unitEscape c.toNat
  else
    unitEscape (0xd800 + (c.toNat - 0x10000) / 0x400) ++
      unitEscape (0xdc00 + (c.toNat - 0x10000) % 0x400)

/-- The characters of a string, quotes included. -/
def stringChars (s : List Char) : List Char := '"' :: (s.flatMap charText ++ ['"'])

/-- A text as a JSON string. -/
def string (s : String) : String := String.ofList (stringChars s.toList)

/-- The line break before an item that is nested `depth` levels deep. -/
def lineBreak (depth : Nat) : String := "\n" ++ String.ofList (List.replicate (2 * depth) ' ')

mutual

/-- A value over several lines, two spaces to each level of nesting. -/
def render (depth : Nat) : Json → String
  | .null => "null"
  | .bool b => if b then "true" else "false"
  | .text s => string s
  | .list [] => "[]"
  | .list (item :: rest) =>
    "[" ++ lineBreak (depth + 1) ++ render (depth + 1) item ++ renderItems (depth + 1) rest ++
      lineBreak depth ++ "]"
  | .object [] => "\x7b\x7d"
  | .object ((key, v) :: rest) =>
    "\x7b" ++ lineBreak (depth + 1) ++ string key ++ ": " ++ render (depth + 1) v ++
      renderMembers (depth + 1) rest ++ lineBreak depth ++ "\x7d"

/-- The items of a list after the first. -/
def renderItems (depth : Nat) : List Json → String
  | [] => ""
  | item :: rest => "," ++ lineBreak depth ++ render depth item ++ renderItems depth rest

/-- The members of an object after the first. -/
def renderMembers (depth : Nat) : List (String × Json) → String
  | [] => ""
  | (key, v) :: rest =>
    "," ++ lineBreak depth ++ string key ++ ": " ++ render depth v ++ renderMembers depth rest

end

end Json

end CheckRegistry
