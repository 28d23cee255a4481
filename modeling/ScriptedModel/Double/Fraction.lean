/-
Decimal fractions as they are written, and the magnitudes nearest to them.
-/
import ScriptedModel.Double.Basic
import ScriptedModel.Text.Numeral

namespace ScriptedModel

/-- The parts of a decimal fraction: the digits before and after the point and the exponent. -/
structure Fraction where
  whole : List Char
  decimals : List Char
  exponent : Int
  deriving Repr

namespace Fraction

/-- The exponent after a letter for it, if nothing else follows. -/
def exponent? : List Char → Option Int
  | [] => some 0
  | c :: cs =>
    if c = 'e' ∨ c = 'E' then
      match cs with
      | '-' :: ds => (Numeral.value? 10 ds).map fun n => -(n : Int)
      | '+' :: ds | ds => (Numeral.value? 10 ds).map fun n => (n : Int)
    else none

/-- The decimal fraction that a text without a sign spells. -/
def ofChars? (cs : List Char) : Option Fraction := do
  let whole := cs.takeWhile Char.isDigit
  let (decimals, rest) := match cs.dropWhile Char.isDigit with
    | '.' :: r => (r.takeWhile Char.isDigit, r.dropWhile Char.isDigit)
    | r => ([], r)
  if whole = [] ∧ decimals = [] then none
  else return ⟨whole, decimals, ← exponent? rest⟩

/-- The magnitude nearest to a decimal fraction, or none if that is too large to be finite. Those
of more than 309 digits before the point are too large, and those that begin more than 330 places
after it are zero. -/
def nearest? (f : Fraction) : Option Magnitude :=
  let n := Numeral.value 10 (f.whole ++ f.decimals)
  let e := f.exponent - f.decimals.length
  let length : Int := (Numeral.digits 10 n).length
  if n = 0 ∨ length + e < -330 then some .zero
  else if 310 ≤ length + e then none
  else Magnitude.nearest? (n * Nat.pow 10 e.toNat) (Nat.pow 10 (-e).toNat)

end Fraction

end ScriptedModel
