import CheckRegistry.Number.Shortest
import CheckRegistry.Text.Quoted
import CheckRegistry.Value.Basic

/-!
# How messages show a value

A message that complains about a value shows it in full: texts in quotes, collections in their
brackets, numbers as short as they can be read back.
-/

namespace CheckRegistry.Value

mutual

/-- The value as a message shows it. -/
def literal : Value → String
  | .none => "None"
  | .bool b => if b then "True" else "False"
  | .int i => toString i
  | .float x => x.text
  | .text s => Text.quoted s
  | .bytes b => Text.quotedBytes b
  | .list items => "[" ++ ", ".intercalate (literals items) ++ "]"
  | .tuple [item] => "(" ++ literal item ++ ",)"
  | .tuple items => "(" ++ ", ".intercalate (literals items) ++ ")"
  | .set [] => "frozenset()"
  | .set items => "frozenset(\x7b" ++ ", ".intercalate (literals items) ++ "\x7d)"
  | .dict entries => "\x7b" ++ ", ".intercalate (entryLiterals entries) ++ "\x7d"
  | .word w => w.literal
  | .sample snippet outcome source =>
    "Example(snippet=" ++ literal snippet ++ ", outcome=" ++ literal outcome ++ ", source=" ++
      literal source ++ ")"

/-- Each of several values as a message shows it. -/
def literals : List Value → List String
  | [] => []
  | v :: rest => literal v :: literals rest

/-- Each entry of a table as a message shows it. -/
def entryLiterals : List (String × Value) → List String
  | [] => []
  | (key, v) :: rest => (Text.quoted key ++ ": " ++ literal v) :: entryLiterals rest

end

end CheckRegistry.Value
