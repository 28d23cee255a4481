/-
Percent escapes: a byte written as a percent sign and two hexadecimal digits. An escape that lacks
its digits stands for itself.
-/
import ScriptedModel.Text.Numeral
import ScriptedModel.Text.Utf8

namespace ScriptedModel.Percent

/-! ## Reading -/

/-- The value of a byte that is a hexadecimal digit. -/
def digit? (b : UInt8) : Option Nat :=
  let c := Char.ofNat b.toNat
  if Numeral.isDigit 16 c then some (Numeral.digitValue c) else none

/-- The byte of a percent sign. -/
def sign : UInt8 := 37

/-- Replaces each escape by the byte it stands for. -/
def unescape : List UInt8 → List UInt8
  | [] => []
  | b :: c :: d :: bs =>
    if b = sign then
      match digit? c, digit? d with
      | some high, some low => UInt8.ofNat (high * 16 + low) :: unescape bs
      | _, _ => b :: unescape (c :: d :: bs)
    else b :: unescape (c :: d :: bs)
  | b :: bs => b :: unescape bs

/-- The text that remains when the escapes are replaced, if it is text. -/
def decode? (cs : List Char) : Option (List Char) := Utf8.decode? (unescape (Utf8.encode cs))

/-! ## Writing -/

/-- Whether a character never needs an escape. -/
def isUnreserved (c : Char) : Bool :=
  c.isAlphanum || c = '-' || c = '.' || c = '_' || c = '~'

/-- The escape of a byte. -/
def escape (b : UInt8) : List Char := '%' :: (Numeral.padded 16 2 b.toNat).map Char.toUpper

/-- A text with each character escaped that may need it. -/
def encode (cs : List Char) : List Char :=
  cs.flatMap fun c => if isUnreserved c then [c] else (Utf8.encode [c]).flatMap escape

end ScriptedModel.Percent
