/-!
# Line ends

A text file may end its lines by a line feed, a carriage return, or both.  `unifyLineEnds` turns
each of the three into one line feed, so that the rest of the library sees only that one.
-/

namespace CheckRegistry.Text

/-- Turns each line end into a line feed. -/
def unifyLineEnds : List Char → List Char
  | '\r' :: '\n' :: rest => '\n' :: unifyLineEnds rest
  | '\r' :: rest => '\n' :: unifyLineEnds rest
  | c :: rest => c :: unifyLineEnds rest
  | [] => []

/-- Removes one line feed from the end. -/
def dropFinalNewline (s : List Char) : List Char :=
  if s.getLast? = some '\n' then s.dropLast else s

example : unifyLineEnds "a\r\nb\rc\n\r".toList = "a\nb\nc\n\n".toList := rfl

end CheckRegistry.Text
