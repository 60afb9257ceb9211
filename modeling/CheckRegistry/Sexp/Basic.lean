import CheckRegistry.Number.Numeral
import CheckRegistry.Number.Shortest
import CheckRegistry.Text.Quoted
import CheckRegistry.Value.Basic

/-!
# S-expressions

Declaration files are written in S-expressions: atoms, texts in quotes, and lists.  The notation
also has a quote mark and lists in square brackets; they can be read, so that a message can show
them, but no declaration uses them.
-/

namespace CheckRegistry

/-- An S-expression. -/
inductive Sexp
  | symbol (name : String)
  | text (s : String)
  | int (i : Int)
  | float (x : Binary64)
  /-- A list in round brackets. -/
  | list (items : List Sexp)
  /-- A list in square brackets. -/
  | brackets (items : List Sexp)
  /-- An expression after a quote mark. -/
  | quoted (x : Sexp)
  deriving Inhabited

namespace Sexp

mutual

/-- Decides whether two expressions are equal.  Their kinds are compared first, so that only
expressions of one kind are left to look into. -/
def decEq (x y : Sexp) : Decidable (x = y) :=
  if h : x.ctorIdx = y.ctorIdx then
    match x, y, h with
    | .symbol a, .symbol b, _ => decidable_of_iff (a = b) ⟨congrArg _, symbol.inj⟩
    | .text a, .text b, _ => decidable_of_iff (a = b) ⟨congrArg _, text.inj⟩
    | .int a, .int b, _ => decidable_of_iff (a = b) ⟨congrArg _, int.inj⟩
    | .float a, .float b, _ => decidable_of_iff (a = b) ⟨congrArg _, float.inj⟩
    | .list a, .list b, _ =>
      have := decEqAll a b
      decidable_of_iff (a = b) ⟨congrArg _, list.inj⟩
    | .brackets a, .brackets b, _ =>
      have := decEqAll a b
      decidable_of_iff (a = b) ⟨congrArg _, brackets.inj⟩
    | .quoted a, .quoted b, _ =>
      have := decEq a b
      decidable_of_iff (a = b) ⟨congrArg _, quoted.inj⟩
  else isFalse fun heq => h (congrArg _ heq)

/-- Decides whether two lists of expressions are equal. -/
def decEqAll : (xs ys : List Sexp) → Decidable (xs = ys)
  | [], [] => isTrue rfl
  | [], _ :: _ => isFalse nofun
  | _ :: _, [] => isFalse nofun
  | x :: xs, y :: ys =>
    have := decEq x y
    have := decEqAll xs ys
    decidable_of_iff (x = y ∧ xs = ys) List.cons_eq_cons.symm

end

instance : DecidableEq Sexp := decEq

mutual

/-- The expression as a message shows it. -/
def literal : Sexp → String
  | .symbol name => "Symbol(" ++ Text.quoted name ++ ")"
  | .text s => Text.quoted s
  | .int i => toString i
  | .float x => x.text
  | .list items => "[" ++ ", ".intercalate (literals items) ++ "]"
  | .brackets items => "Brackets(I=[" ++ ", ".intercalate (literals items) ++ "])"
  | .quoted x => "Quoted(" ++ literal x ++ ")"

/-- Each of several expressions as a message shows it. -/
def literals : List Sexp → List String
  | [] => []
  | x :: rest => literal x :: literals rest

end

/-- The expression that an atom stands for: a number if it reads as one, else a symbol. -/
def ofAtom (s : String) : Sexp :=
  match Numeral.ofText? s with
  | some (.int i) => .int i
  | some (.float x) => .float x
  | none => .symbol s

mutual

/-- An expression as a value: symbols and texts are texts alike.  The first quotation or list in
square brackets on the way has no value, and is given back instead. -/
def toValue : Sexp → Except Sexp Value
  | .symbol s => .ok (.text s)
  | .text s => .ok (.text s)
  | .int i => .ok (.int i)
  | .float x => .ok (.float x)
  | .list items => .list <$> toValues items
  | x@(.brackets _) => .error x
  | x@(.quoted _) => .error x

/-- Several expressions as values, from the first to the last. -/
def toValues : List Sexp → Except Sexp (List Value)
  | [] => .ok []
  | x :: rest => do
    let v ← toValue x
    let vs ← toValues rest
    return v :: vs

end

end Sexp

end CheckRegistry
