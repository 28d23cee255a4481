/-
Doubles from decimals: a significand rounded once, then multiplied or divided by a rounded power
of ten. Powers beyond 10^308 are not finite, so a smaller decimal is divided by 10^308 first.
-/
import ScriptedModel.Double.Basic

namespace ScriptedModel.Double

/-- The largest power of ten that is finite. -/
def greatestPower : Nat := 308

/-- A magnitude times a power of ten: one rounded product or quotient for a power in range, and
one more quotient for every 308 places below. None if the result is too large. -/
def timesPower (x : Magnitude) (power : Int) : Option Magnitude :=
  if power.natAbs ≤ greatestPower then do
    let ten ← Magnitude.ofNat? (Nat.pow 10 power.natAbs)
    if 0 ≤ power then x.mul? ten else x.div? ten
  else if x.significand = 0 then some x
  else if 0 ≤ power then none
  else do
    let ten ← Magnitude.ofNat? (Nat.pow 10 greatestPower)
    let y ← x.div? ten
    timesPower y (power + greatestPower)
termination_by power.natAbs
decreasing_by simp only [greatestPower] at *; omega

/-- The double that a sign, a significand and a power of ten give, or none if it overflows. -/
def ofDecimal? (negative : Bool) (significand : Nat) (power : Int) : Option Double := do
  let x ← Magnitude.ofNat? significand
  let y ← timesPower x power
  return ⟨negative, y⟩

end ScriptedModel.Double
