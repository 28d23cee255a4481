/-
The shortest decimal of a double: of the decimals that round to it, one with the fewest digits,
and of those the nearest. For each number of digits only the two neighbours of the value on that
decimal grid have to be tried; seventeen digits always suffice.
-/
import ScriptedModel.Double.Basic
import ScriptedModel.Text.Numeral

namespace ScriptedModel

/-- The decimal d.ddd · 10^exponent with the digits of a natural number. -/
structure Scientific where
  digits : List Char
  exponent : Int
  deriving DecidableEq, Repr

namespace Magnitude

/-! ## The decimals that round to a magnitude -/

/-- The ends of the rounding interval, in quarters of a unit in the last place. Below a power of
two the spacing halves. -/
def interval (x : Magnitude) : Nat × Nat :=
  let low := if x.significand = significandBound / 2 ∧ leastExponent < x.exponent then 1 else 2
  (4 * x.significand - low, 4 * x.significand + 2)

/-- Compares c · 10^p with b · 2^q. -/
def compareDecimal (c : Nat) (p : Int) (b : Nat) (q : Int) : Ordering :=
  compare (c * Nat.pow 10 p.toNat * Nat.pow 2 (-q).toNat) (b * Nat.pow 2 q.toNat * Nat.pow 10 (-p).toNat)

/-- Whether c · 10^p rounds to the magnitude; the ends count for an even significand. -/
def covers (x : Magnitude) (c : Nat) (p : Int) : Bool :=
  let (low, high) := x.interval
  let q := x.exponent - 2
  let even : Bool := x.significand % 2 = 0
  (match compareDecimal c p low q with
    | .lt => false
    | .eq => even
    | .gt => true) &&
  (match compareDecimal c p high q with
    | .lt => true
    | .eq => even
    | .gt => false)

/-! ## The search -/

/-- The largest e with 10^e ≤ num/den, for a positive ratio. -/
def decimalExponent (num den : Nat) : Int :=
  if den ≤ num then ((Numeral.digits 10 (num / den)).length : Int) - 1
  else
    let least := (den + num - 1) / num
    0 - ((Numeral.digits 10 (least - 1)).length : Int)

/-- Of the two neighbours c and c + 1 on the grid 10^p, one that rounds to the magnitude: the
nearer, and of two equally near the even one. -/
def neighbour? (x : Magnitude) (c : Nat) (p : Int) : Option Nat :=
  match x.covers c p, x.covers (c + 1) p with
  | false, false => none
  | true, false => some c
  | false, true => some (c + 1)
  | true, true =>
    match compareDecimal (2 * c + 1) p (2 * x.significand) x.exponent with
    | .gt => some c
    | .lt => some (c + 1)
    | .eq => some (if c % 2 = 0 then c else c + 1)

/-- Tries grids of n, n + 1, … digits, at most `tries` of them. -/
def search (x : Magnitude) (e : Int) : Nat → Nat → Nat × Int
  | 0, n => (x.significand, e - n + 1)
  | tries + 1, n =>
    let p := e - n + 1
    let (num, den) := x.ratio
    let c := if 0 ≤ p then num / (den * Nat.pow 10 p.toNat) else num * Nat.pow 10 (-p).toNat / den
    match x.neighbour? c p with
    | some d => (d, p)
    | none => search x e tries (n + 1)

/-- The digits without the zeros at their end. -/
def withoutTrailingZeros (ds : List Char) : List Char := (ds.reverse.dropWhile (· = '0')).reverse

/-- The shortest decimal of a magnitude that is not zero. -/
def shortest (x : Magnitude) : Scientific :=
  let (num, den) := x.ratio
  let (c, p) := search x (decimalExponent num den) 17 1
  let ds := Numeral.digits 10 c
  ⟨withoutTrailingZeros ds, p + ds.length - 1⟩

end Magnitude

end ScriptedModel
