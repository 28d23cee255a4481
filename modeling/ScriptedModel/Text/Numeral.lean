/-
Positional numerals: the digits of a natural number in a base up to sixteen, and the number that
a list of digits spells. Leading zeros are read and never written.
-/

namespace ScriptedModel.Numeral

/-! ## Digits -/

/-- The value of a digit character, letters of either case counting from ten. -/
def digitValue (c : Char) : Nat :=
  if c.isDigit then c.toNat - '0'.toNat
  else if 'a' ≤ c ∧ c ≤ 'z' then c.toNat - 'a'.toNat + 10
  else if 'A' ≤ c ∧ c ≤ 'Z' then c.toNat - 'A'.toNat + 10
  else 36

/-- Whether a character is a digit of the base. -/
def isDigit (base : Nat) (c : Char) : Bool := digitValue c < base

/-! ## Reading -/

/-- The number that the digits spell after the number already read. -/
def valueFrom (base : Nat) (start : Nat) (ds : List Char) : Nat :=
  ds.foldl (fun n d => n * base + digitValue d) start

/-- The number that a list of digits spells; no digits spell zero. -/
def value (base : Nat) (ds : List Char) : Nat := valueFrom base 0 ds

/-- The number that a non-empty list of digits of the base spells. -/
def value? (base : Nat) (ds : List Char) : Option Nat :=
  if ds ≠ [] ∧ ds.all (isDigit base) then some (value base ds) else none

/-- The number read with a ceiling: once a step passes the ceiling, the ceiling stays. -/
def saturated (base ceiling : Nat) (ds : List Char) : Nat :=
  ds.foldl (fun n d => min (n * base + digitValue d) ceiling) 0

/-! ## Writing -/

/-- The digits of a number in a base of two or more, the most significant first. -/
def digits (base n : Nat) : List Char :=
  if _h : n < base ∨ base < 2 then [Nat.digitChar n]
  else digits base (n / base) ++ [Nat.digitChar (n % base)]
termination_by n
decreasing_by exact Nat.div_lt_self (by omega) (by omega)

/-- The digits, with zeros in front up to a width. -/
def padded (base width n : Nat) : List Char :=
  let ds := digits base n
  List.replicate (width - ds.length) '0' ++ ds

/-- A number in decimal. -/
def decimal (n : Nat) : String := String.ofList (digits 10 n)

end ScriptedModel.Numeral
