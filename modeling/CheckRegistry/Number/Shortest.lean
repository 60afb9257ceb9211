import CheckRegistry.Number.Binary64

/-!
# The shortest decimal of a binary64 number

A finite number is shown with as few digits as identify it.  All reals between the midpoints to
its two neighbours round to it, the midpoints included when its mantissa is even.  For one digit,
two digits and so on the two decimals of that length next to the value are tried; the first
length with one inside the interval wins, and of two the nearer.
-/

namespace CheckRegistry.Binary64

/-- A decimal: the value of its digits and the power of ten they are multiplied by. -/
structure Decimal where
  digits : Nat
  exponent : Int
  deriving DecidableEq, Repr

/-- The interval that rounds to a number, in quarters of the unit `2 ^ exponent`: below the number
lie two quarters, or one when its mantissa is the least of 53 bits and so the neighbour below is
nearer. -/
def quarters (mantissa : Nat) (exponent : Int) : Nat × Nat :=
  let below := if mantissa = Nat.pow 2 52 ∧ exponent > minExponent then 1 else 2
  (4 * mantissa - below, 4 * mantissa + 2)

/-- Multiplies a natural number by a power of ten and a power of two, as a fraction. -/
def fraction (n : Nat) (ten two : Int) : Nat × Nat :=
  (n * Nat.pow 10 ten.toNat * Nat.pow 2 two.toNat,
   Nat.pow 10 (-ten).toNat * Nat.pow 2 (-two).toNat)

/-- Compares two fractions. -/
def fractionLe (a b : Nat × Nat) : Bool := a.1 * b.2 ≤ b.1 * a.2

/-- The decimal exponent of the first digit of a positive fraction. -/
def leadingExponent (value : Nat × Nat) : Int :=
  if value.2 ≤ value.1 then (digitCount (value.1 / value.2) : Int) - 1
  else -(digitCount ((value.2 - 1) / value.1) : Int)

/-- Tries the decimals with `count` digits next to `mantissa * 2 ^ exponent`. -/
def shortestWith (mantissa : Nat) (exponent : Int) (lead : Int) (count : Nat) : Option Decimal :=
  let place := lead - count + 1
  let (low, high) := quarters mantissa exponent
  let value := fraction (4 * mantissa) (-place) (exponent - 2)
  let lower := fraction low (-place) (exponent - 2)
  let upper := fraction high (-place) (exponent - 2)
  let inside (g : Nat) : Bool :=
    if mantissa % 2 = 0 then fractionLe lower (g, 1) && fractionLe (g, 1) upper
    else !fractionLe (g, 1) lower && !fractionLe upper (g, 1)
  let floor := value.1 / value.2
  let rest := value.1 % value.2
  match inside floor, inside (floor + 1) with
  | true, true =>
    if 2 * rest < value.2 ∨ (2 * rest = value.2 ∧ floor % 2 = 0) then some ⟨floor, place⟩
    else some ⟨floor + 1, place⟩
  | true, false => some ⟨floor, place⟩
  | false, true => some ⟨floor + 1, place⟩
  | false, false => none

/-- The shortest decimal that rounds to the positive number `mantissa * 2 ^ exponent`.  Seventeen
digits are always enough. -/
def shortest (mantissa : Nat) (exponent : Int) : Decimal :=
  let lead := leadingExponent (fraction mantissa 0 exponent)
  ((List.range 17).findSome? fun i => shortestWith mantissa exponent lead (i + 1)).getD ⟨0, 0⟩

/-- Removes zeros from the end of a digit sequence. -/
def dropEndZeros (digits : List Char) : List Char := (digits.reverse.dropWhile (· == '0')).reverse

/-- An exponent with its sign and at least two digits. -/
def exponentText (e : Int) : List Char :=
  let digits := Nat.toDigits 10 e.natAbs
  (if e < 0 then '-' else '+') :: (if digits.length < 2 then '0' :: digits else digits)

/-- Writes digits whose point stands `point` places after their beginning.  Positional notation
reaches from `0.0001` to below `10 ^ 16` and always shows a digit after the point; outside it
there is one digit before the point and an exponent. -/
def layout (digits : List Char) (point : Int) : List Char :=
  if point ≤ -4 ∨ 16 < point then
    match digits with
    | [] => []
    | [d] => d :: 'e' :: exponentText (point - 1)
    | d :: rest => d :: '.' :: (rest ++ 'e' :: exponentText (point - 1))
  else if point ≤ 0 then '0' :: '.' :: (List.replicate (-point).toNat '0' ++ digits)
  else
    let n := point.toNat
    if digits.length ≤ n then digits ++ List.replicate (n - digits.length) '0' ++ ['.', '0']
    else digits.take n ++ '.' :: digits.drop n

/-- The text of a number. -/
def text : Binary64 → String
  | .nan => "nan"
  | .infinite negative => if negative then "-inf" else "inf"
  | .finite negative mantissa exponent =>
    let body :=
      if mantissa = 0 then ['0', '.', '0']
      else
        let d := shortest mantissa exponent
        let digits := Nat.toDigits 10 d.digits
        layout (dropEndZeros digits) (digits.length + d.exponent)
    String.ofList (if negative then '-' :: body else body)

end CheckRegistry.Binary64
