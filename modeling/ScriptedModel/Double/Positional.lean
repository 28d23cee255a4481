/-
Magnitudes in positional notation: the shortest decimal, written out without an exponent.
-/
import ScriptedModel.Double.Shortest

namespace ScriptedModel

/-- A decimal with zeros up to the point or after it; a whole one has no point. -/
def Scientific.positional (s : Scientific) : List Char :=
  if s.exponent < 0 then '0' :: '.' :: (List.replicate (-s.exponent - 1).toNat '0' ++ s.digits)
  else
    let places := s.exponent.toNat + 1
    let whole := s.digits.take places ++ List.replicate (places - s.digits.length) '0'
    match s.digits.drop places with
    | [] => whole
    | decimals => whole ++ '.' :: decimals

/-- A magnitude in positional notation. -/
def Magnitude.positional (x : Magnitude) : List Char :=
  if x.significand = 0 then ['0'] else x.shortest.positional

end ScriptedModel
