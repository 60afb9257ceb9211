import CheckRegistry.Number.Binary64
import CheckRegistry.Vocabulary.Words

/-!
# Values of a declaration

Before a field is judged, its value may be of any kind that a declaration file, a program or a
provider of examples can hand over.  `Value` is that open type; reading a field is a function
from it.
-/

namespace CheckRegistry

/-- A value as it is handed over, before any field has judged it.  Of tables there are only those
whose keys are texts. -/
inductive Value
  | none
  | bool (b : Bool)
  | int (i : Int)
  | float (x : Binary64)
  | text (s : String)
  | bytes (bytes : List UInt8)
  | list (items : List Value)
  | tuple (items : List Value)
  /-- A set without order; its items are pairwise different. -/
  | set (items : List Value)
  /-- A table from texts to values, in the order of insertion. -/
  | dict (entries : List (String × Value))
  /-- A word of a closed vocabulary. -/
  | word (w : Word)
  /-- A documentation example: snippet, outcome and source. -/
  | sample (snippet outcome source : Value)
  deriving Inhabited

namespace Value

mutual

/-- Decides whether two values are equal.  Their kinds are compared first, so that only values of
one kind are left to look into. -/
def decEq (v w : Value) : Decidable (v = w) :=
  if h : v.ctorIdx = w.ctorIdx then
    match v, w, h with
    | .none, .none, _ => isTrue rfl
    | .bool a, .bool b, _ => decidable_of_iff (a = b) ⟨congrArg _, bool.inj⟩
    | .int a, .int b, _ => decidable_of_iff (a = b) ⟨congrArg _, int.inj⟩
    | .float a, .float b, _ => decidable_of_iff (a = b) ⟨congrArg _, float.inj⟩
    | .text a, .text b, _ => decidable_of_iff (a = b) ⟨congrArg _, text.inj⟩
    | .bytes a, .bytes b, _ => decidable_of_iff (a = b) ⟨congrArg _, bytes.inj⟩
    | .list a, .list b, _ =>
      have := decEqAll a b
      decidable_of_iff (a = b) ⟨congrArg _, list.inj⟩
    | .tuple a, .tuple b, _ =>
      have := decEqAll a b
      decidable_of_iff (a = b) ⟨congrArg _, tuple.inj⟩
    | .set a, .set b, _ =>
      have := decEqAll a b
      decidable_of_iff (a = b) ⟨congrArg _, set.inj⟩
    | .dict a, .dict b, _ =>
      have := decEqEntries a b
      decidable_of_iff (a = b) ⟨congrArg _, dict.inj⟩
    | .word a, .word b, _ => decidable_of_iff (a = b) ⟨congrArg _, word.inj⟩
    | .sample a b c, .sample x y z, _ =>
      have := decEq a x
      have := decEq b y
      have := decEq c z
      decidable_of_iff (a = x ∧ b = y ∧ c = z)
        ⟨fun ⟨ha, hb, hc⟩ => ha ▸ hb ▸ hc ▸ rfl, sample.inj⟩
  else isFalse fun heq => h (congrArg _ heq)

/-- Decides whether two lists of values are equal. -/
def decEqAll : (vs ws : List Value) → Decidable (vs = ws)
  | [], [] => isTrue rfl
  | [], _ :: _ => isFalse nofun
  | _ :: _, [] => isFalse nofun
  | v :: vs, w :: ws =>
    have := decEq v w
    have := decEqAll vs ws
    decidable_of_iff (v = w ∧ vs = ws) List.cons_eq_cons.symm

/-- Decides whether two tables are equal, the order of their entries included. -/
def decEqEntries : (es fs : List (String × Value)) → Decidable (es = fs)
  | [], [] => isTrue rfl
  | [], _ :: _ => isFalse nofun
  | _ :: _, [] => isFalse nofun
  | (key, v) :: es, (key', w) :: fs =>
    have := decEq v w
    have := decEqEntries es fs
    decidable_of_iff ((key = key' ∧ v = w) ∧ es = fs)
      (by rw [List.cons_eq_cons, Prod.mk.injEq])

end

instance : DecidableEq Value := decEq

/-- The name of a value's kind, as messages give it. -/
def kind : Value → String
  | .none => "NoneType"
  | .bool _ => "bool"
  | .int _ => "int"
  | .float _ => "float"
  | .text _ => "str"
  | .bytes _ => "bytes"
  | .list _ => "list"
  | .tuple _ => "tuple"
  | .set _ => "frozenset"
  | .dict _ => "dict"
  | .word w => w.title
  | .sample .. => "Example"

/-- The values that going through a value yields one by one, if one can go through it: the items
of a collection, the keys of a table, the characters of a text, the bytes of a byte string. -/
def items? : Value → Option (List Value)
  | .text s => some (s.toList.map fun c => .text (String.singleton c))
  | .bytes b => some (b.map fun x => .int x.toNat)
  | .list xs | .tuple xs | .set xs => some xs
  | .dict entries => some (entries.map fun e => .text e.1)
  | .sample snippet outcome source => some [snippet, outcome, source]
  | .none | .bool _ | .int _ | .float _ | .word _ => Option.none

/-- The integer that a number or a truth value is equal to. -/
def integer? : Value → Option Int
  | .bool b => some (if b then 1 else 0)
  | .int i => some i
  | .float x => x.toInt?
  | _ => Option.none

mutual

/-- Equality as the items of a set are compared: numbers by their value, an example as the tuple
of its three parts, sets by their items whatever the order, all else by kind and content. -/
def same : Value → Value → Bool
  | .none, .none => true
  | .text a, .text b => a == b
  | .bytes a, .bytes b => a == b
  | .word a, .word b => a == b
  | .list a, .list b => sameAll a b
  | .tuple a, .tuple b => sameAll a b
  | .set a, .set b => a.length == b.length && allAmong a b
  | .sample a b c, .tuple [x, y, z] => same a x && same b y && same c z
  | .tuple [x, y, z], .sample a b c => same x a && same y b && same z c
  | .sample a b c, .sample x y z => same a x && same b y && same c z
  | .float x, .float y => x.same y
  | x, y =>
    match x.integer?, y.integer? with
    | some i, some j => i == j
    | _, _ => false

/-- Equality item by item. -/
def sameAll : List Value → List Value → Bool
  | [], [] => true
  | a :: as, b :: bs => same a b && sameAll as bs
  | _, _ => false

/-- Whether every item is equal to one of some values. -/
def allAmong : List Value → List Value → Bool
  | [], _ => true
  | a :: as, values => values.any (fun v => same a v) && allAmong as values

end

/-- The set of some values: of equal ones the first stays. -/
def ofItems (items : List Value) : Value :=
  .set (items.foldl (fun seen v => if seen.any (same v) then seen else seen ++ [v]) [])

end Value

end CheckRegistry
