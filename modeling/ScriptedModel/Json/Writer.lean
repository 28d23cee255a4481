/-
JSON text of a value: compact, or indented by two spaces. Strings escape the quote, the backslash
and the control characters below U+0020; all else is written as it is. Doubles are written with
the fewest digits that read back, positionally when the first digit stands at most five places
below and less than sixteen above the units.
-/
import ScriptedModel.Double.Shortest
import ScriptedModel.Json.Value

namespace ScriptedModel.Json

/-! ## Numbers -/

/-- The text of a decimal: positional in the window, scientific outside. -/
def writeScientific (s : Scientific) : List Char :=
  let ds := s.digits
  if 0 ≤ s.exponent ∧ s.exponent < 16 then
    let places := s.exponent.toNat + 1
    let whole := ds.take places ++ List.replicate (places - ds.length) '0'
    let fraction := ds.drop places
    whole ++ '.' :: (if fraction = [] then ['0'] else fraction)
  else if -5 ≤ s.exponent ∧ s.exponent < 0 then
    ['0', '.'] ++ List.replicate ((-s.exponent).toNat - 1) '0' ++ ds
  else
    let fraction := ds.drop 1
    ds.take 1 ++ (if fraction = [] then [] else '.' :: fraction) ++
      'e' :: (if 0 ≤ s.exponent then '+' else '-') :: Numeral.digits 10 s.exponent.natAbs

/-- The text of a double. -/
def writeDouble (d : Double) : List Char :=
  let sign := if d.negative then ['-'] else []
  if d.magnitude.significand = 0 then sign ++ ['0', '.', '0']
  else sign ++ writeScientific d.magnitude.shortest

/-- The text of an integer. -/
def writeInteger (z : Int) : List Char :=
  if z < 0 then '-' :: Numeral.digits 10 z.natAbs else Numeral.digits 10 z.natAbs

/-- The text of a number. -/
def Number.write : Number → List Char
  | .integer z => writeInteger z
  | .double d => writeDouble d

/-! ## Strings -/

/-- The text of a character inside quotes. -/
def escape (c : Char) : List Char :=
  if c = '"' then ['\\', '"']
  else if c = '\\' then ['\\', '\\']
  else if c = '\x08' then ['\\', 'b']
  else if c = '\t' then ['\\', 't']
  else if c = '\n' then ['\\', 'n']
  else if c = '\x0c' then ['\\', 'f']
  else if c = '\r' then ['\\', 'r']
  else if c.toNat < 0x20 then '\\' :: 'u' :: Numeral.padded 16 4 c.toNat
  else [c]

/-- A text in quotes. -/
def quote (s : String) : List Char := '"' :: (s.toList.flatMap escape ++ ['"'])

/-! ## Compact text -/

mutual

/-- The compact text of a value. -/
def Value.write : Value → List Char
  | .null => ['n', 'u', 'l', 'l']
  | .bool true => ['t', 'r', 'u', 'e']
  | .bool false => ['f', 'a', 'l', 's', 'e']
  | .number n => n.write
  | .string s => quote s
  | .array [] => ['[', ']']
  | .array (v :: vs) => '[' :: (v.write ++ writeItems vs)
  | .object [] => ['{', '}']
  | .object ((k, v) :: ms) => '{' :: (quote k ++ ':' :: (v.write ++ writeMembers ms))

/-- The text of the items after the first, and the bracket that closes the array. -/
def writeItems : List Value → List Char
  | [] => [']']
  | v :: vs => ',' :: (v.write ++ writeItems vs)

/-- The text of the members after the first, and the brace that closes the object. -/
def writeMembers : List (String × Value) → List Char
  | [] => ['}']
  | (k, v) :: ms => ',' :: (quote k ++ ':' :: (v.write ++ writeMembers ms))

end

/-- The compact text of a value, as a string. -/
def Value.compact (v : Value) : String := String.ofList v.write

/-! ## Indented text -/

/-- A line feed and the indentation of a depth. -/
def newLine (depth : Nat) : List Char := '\n' :: List.replicate (2 * depth) ' '

mutual

/-- The indented text of a value that stands at a depth. -/
def Value.writeIndented (depth : Nat) : Value → List Char
  | .null => ['n', 'u', 'l', 'l']
  | .bool true => ['t', 'r', 'u', 'e']
  | .bool false => ['f', 'a', 'l', 's', 'e']
  | .number n => n.write
  | .string s => quote s
  | .array [] => ['[', ']']
  | .array (v :: vs) =>
    '[' :: (newLine (depth + 1) ++ v.writeIndented (depth + 1) ++ writeItemsIndented depth vs)
  | .object [] => ['{', '}']
  | .object ((k, v) :: ms) =>
    '{' :: (newLine (depth + 1) ++ quote k ++ ':' :: ' ' ::
      (v.writeIndented (depth + 1) ++ writeMembersIndented depth ms))

/-- The items after the first on lines of their own, and the closing bracket. -/
def writeItemsIndented (depth : Nat) : List Value → List Char
  | [] => newLine depth ++ [']']
  | v :: vs =>
    ',' :: (newLine (depth + 1) ++ v.writeIndented (depth + 1) ++ writeItemsIndented depth vs)

/-- The members after the first on lines of their own, and the closing brace. -/
def writeMembersIndented (depth : Nat) : List (String × Value) → List Char
  | [] => newLine depth ++ ['}']
  | (k, v) :: ms =>
    ',' :: (newLine (depth + 1) ++ quote k ++ ':' :: ' ' ::
      (v.writeIndented (depth + 1) ++ writeMembersIndented depth ms))

end

/-- The indented text of a value, as a string. -/
def Value.indented (v : Value) : String := String.ofList (v.writeIndented 0)

end ScriptedModel.Json
