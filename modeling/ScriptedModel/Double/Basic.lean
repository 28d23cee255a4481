/-
Finite binary floating-point numbers of 64 bits, as a sign and a magnitude m · 2^e. Rounding is
exact: a ratio of natural numbers is brought to the nearest magnitude, a tie to the even
significand, and products and quotients are rounded once.
-/

namespace ScriptedModel

/-- The magnitude significand · 2^exponent of a finite double. -/
structure Magnitude where
  significand : Nat
  exponent : Int
  deriving DecidableEq, Repr

/-- A finite double. Both zeros are doubles. -/
structure Double where
  negative : Bool
  magnitude : Magnitude
  deriving DecidableEq, Repr

namespace Magnitude

/-- The exponent of the magnitudes that are spaced most closely. -/
def leastExponent : Int := -1074

/-- The largest exponent of a magnitude. -/
def greatestExponent : Int := 971

/-- The bound that significands stay under. -/
def significandBound : Nat := 0x20000000000000

/-- The zero magnitude. -/
def zero : Magnitude := ⟨0, leastExponent⟩

/-- The ratio num/den over 2^e, as a ratio of natural numbers. -/
def scaledRatio (num den : Nat) (e : Int) : Nat × Nat :=
  if 0 ≤ e then (num, den * Nat.pow 2 e.toNat) else (num * Nat.pow 2 (-e).toNat, den)

/-- The natural number nearest to num/den, a tie going to the even one. -/
def nearestNat (num den : Nat) : Nat :=
  let q := num / den
  let r := num % den
  if 2 * r < den ∨ (2 * r = den ∧ q % 2 = 0) then q else q + 1

/-- The exponent at which the ratio num/den has a significand of 53 bits, or the least one. -/
def exponentOf (num den : Nat) : Int :=
  let guess : Int := num.log2 - den.log2 - 52
  let (n, d) := scaledRatio num den guess
  let e := if n / d < significandBound / 2 then guess - 1 else guess
  max e leastExponent

/-- The magnitude nearest to num/den, or none if that is too large to be finite. -/
def nearest? (num den : Nat) : Option Magnitude :=
  if num = 0 then some zero
  else
    let e := exponentOf num den
    let (n, d) := scaledRatio num den e
    let m := nearestNat n d
    let rounded : Magnitude := if m = significandBound then ⟨significandBound / 2, e + 1⟩ else ⟨m, e⟩
    if greatestExponent < rounded.exponent then none else some rounded

/-- A magnitude as a ratio of natural numbers. -/
def ratio (x : Magnitude) : Nat × Nat :=
  if 0 ≤ x.exponent then (x.significand * Nat.pow 2 x.exponent.toNat, 1)
  else (x.significand, Nat.pow 2 (-x.exponent).toNat)

/-- The product, rounded, or none if it overflows. -/
def mul? (x y : Magnitude) : Option Magnitude :=
  nearest? (x.ratio.1 * y.ratio.1) (x.ratio.2 * y.ratio.2)

/-- The quotient by a magnitude that is not zero, rounded, or none if it overflows. -/
def div? (x y : Magnitude) : Option Magnitude :=
  nearest? (x.ratio.1 * y.ratio.2) (x.ratio.2 * y.ratio.1)

/-- The magnitude nearest to a natural number. -/
def ofNat? (n : Nat) : Option Magnitude := nearest? n 1

end Magnitude

end ScriptedModel
