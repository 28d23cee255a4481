/-
UTF-8. Decoding shows each character, and a gap for each longest start of a character that the
next byte does not continue; a byte that can start no character is a gap of its own.
-/

namespace ScriptedModel.Utf8

/-- The bytes of a text. -/
def encode (cs : List Char) : List UInt8 := cs.flatMap String.utf8EncodeChar

/-! ## Decoding -/

/-- A character of which some bytes are read: its bits so far, the range that the next byte has to
lie in, and the number of bytes after that one. -/
structure Partial where
  bits : Nat
  low : Nat
  high : Nat
  more : Nat
  deriving DecidableEq, Repr

/-- The character, gap or start of a character that a first byte gives. -/
def lead (b : Nat) : List (Option Char) × Option Partial :=
  if b < 0x80 then ([some (Char.ofNat b)], none)
  else if b < 0xC2 then ([none], none)
  else if b < 0xE0 then ([], some ⟨b - 0xC0, 0x80, 0xBF, 0⟩)
  else if b = 0xE0 then ([], some ⟨0, 0xA0, 0xBF, 1⟩)
  else if b = 0xED then ([], some ⟨0xD, 0x80, 0x9F, 1⟩)
  else if b < 0xF0 then ([], some ⟨b - 0xE0, 0x80, 0xBF, 1⟩)
  else if b = 0xF0 then ([], some ⟨0, 0x90, 0xBF, 2⟩)
  else if b < 0xF4 then ([], some ⟨b - 0xF0, 0x80, 0xBF, 2⟩)
  else if b = 0xF4 then ([], some ⟨4, 0x80, 0x8F, 2⟩)
  else ([none], none)

/-- What a byte gives after the bytes of a partial character. -/
def feed : Option Partial → Nat → List (Option Char) × Option Partial
  | none, b => lead b
  | some p, b =>
    if p.low ≤ b ∧ b ≤ p.high then
      let bits := p.bits * 64 + b % 64
      match p.more with
      | 0 => ([some (Char.ofNat bits)], none)
      | more + 1 => ([], some ⟨bits, 0x80, 0xBF, more⟩)
    else (none :: (lead b).1, (lead b).2)

/-- Decodes the bytes after a partial character. -/
def decodeFrom : Option Partial → List UInt8 → List (Option Char)
  | none, [] => []
  | some _, [] => [none]
  | s, b :: bs => (feed s b.toNat).1 ++ decodeFrom (feed s b.toNat).2 bs

/-- The characters and gaps of a list of bytes. -/
def decode (bs : List UInt8) : List (Option Char) := decodeFrom none bs

/-- The text of a list of bytes, if it has no gaps. -/
def decode? (bs : List UInt8) : Option (List Char) := (decode bs).mapM id

/-- The text of a list of bytes, with the replacement character for each gap. -/
def decodeLossy (bs : List UInt8) : List Char := (decode bs).map (fun c => c.getD '\uFFFD')

end ScriptedModel.Utf8
