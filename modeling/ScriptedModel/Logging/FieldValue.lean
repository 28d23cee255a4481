/-
Values that a filter asks of a field. A text is taken for a truth value or a number if it spells
one, and for a pattern else.
-/
import ScriptedModel.Double.Fraction
import ScriptedModel.Double.Positional
import ScriptedModel.Logging.Pattern

namespace ScriptedModel.Logging

/-- A value of a field: a truth value, a number of which an infinite one has no magnitude, no
number at all, or the pattern of a text. -/
inductive FieldValue
  | truth (value : Bool)
  | double (negative : Bool) (magnitude? : Option Magnitude)
  | notANumber
  | natural (value : Nat)
  | integer (value : Int)
  | pattern (text : String)
  deriving DecidableEq, Repr

namespace FieldValue

/-! ## Reading -/

/-- Whether a text has a minus sign, and the text without a sign. -/
def unsigned : List Char → Bool × List Char
  | '-' :: cs => (true, cs)
  | '+' :: cs => (false, cs)
  | cs => (false, cs)

/-- The natural number of 64 bits that a text spells. -/
def natural? (cs : List Char) : Option Nat :=
  if cs.head? = some '-' then none
  else (Numeral.value? 10 (unsigned cs).2).filter (· < UInt64.size)

/-- The integer of 64 bits that a text spells. -/
def integer? (cs : List Char) : Option Int :=
  let (negative, digits) := unsigned cs
  ((Numeral.value? 10 digits).map fun n => if negative then -(n : Int) else n).filter fun z =>
    -(UInt64.size / 2 : Nat) ≤ z ∧ z < (UInt64.size / 2 : Nat)

/-- The number that a text spells, or that it says to be infinite or none. -/
def double? (cs : List Char) : Option FieldValue :=
  let (negative, digits) := unsigned cs
  let name := (String.ofList digits).toLower
  if name = "inf" ∨ name = "infinity" then some (.double negative none)
  else if name = "nan" then some .notANumber
  else (Fraction.ofChars? digits).map fun f => .double negative f.nearest?

/-- The number that a text spells, of the first kind that has it. -/
def number? (cs : List Char) : Option FieldValue :=
  ((natural? cs).map natural).or (((integer? cs).map integer).or (double? cs))

/-- The value that a text spells, if it is a pattern at least. -/
def ofText? (s : String) : Option FieldValue :=
  if s = "true" then some (.truth true)
  else if s = "false" then some (.truth false)
  else (number? s.toList).or (if Pattern.isPattern s.toList then some (.pattern s) else none)

/-! ## Order -/

/-- The kinds of values in their order. -/
def kind : FieldValue → Nat
  | .truth _ => 0
  | .double _ _ => 1
  | .notANumber => 2
  | .natural _ => 3
  | .integer _ => 4
  | .pattern _ => 5

/-- Compares the numbers of two doubles, in which both zeros are one number. -/
def compareDoubles (n : Bool) (x? : Option Magnitude) (m : Bool) (y? : Option Magnitude) : Ordering :=
  let signed (negative : Bool) (k : Nat) : Int := if negative then -(k : Int) else k
  match x?, y? with
  | some x, some y =>
    compare (signed n (x.ratio.1 * y.ratio.2)) (signed m (y.ratio.1 * x.ratio.2))
  | x?, y? =>
    let rank (negative : Bool) (z? : Option Magnitude) : Int := if z?.isSome then 0 else signed negative 1
    compare (rank n x?) (rank m y?)

/-- Compares values, those of different kinds by their kinds. -/
def compare : FieldValue → FieldValue → Ordering
  | .truth a, .truth b => Ord.compare a b
  | .double n x?, .double m y? => compareDoubles n x? m y?
  | .natural a, .natural b => Ord.compare a b
  | .integer a, .integer b => Ord.compare a b
  | .pattern a, .pattern b => Ord.compare a b
  | v, w => Ord.compare v.kind w.kind

instance : Ord FieldValue := ⟨compare⟩

/-! ## Writing -/

/-- The text of a value. -/
def text : FieldValue → String
  | .truth b => if b then "true" else "false"
  | .double negative magnitude? =>
    (if negative then "-" else "") ++ magnitude?.elim "inf" fun m => String.ofList m.positional
  | .notANumber => "NaN"
  | .natural n => Numeral.decimal n
  | .integer z => (if z < 0 then "-" else "") ++ Numeral.decimal z.natAbs
  | .pattern s => s

end FieldValue

end ScriptedModel.Logging
