/-
Tokens of a script: their kinds, where they stand, and how diagnostics call them.
-/
import ScriptedModel.Script.Keyword
import ScriptedModel.Text.Numeral

namespace ScriptedModel.Script

/-! ## Positions -/

/-- A place in a script; lines and columns count characters from one. -/
structure Position where
  line : Nat
  column : Nat
  deriving DecidableEq, Repr

namespace Position

/-- Where a script begins. -/
def start : Position := ⟨1, 1⟩

/-- The place given when there is no token to point at. -/
def nowhere : Position := ⟨0, 0⟩

/-- The place after a character: a line feed starts a line, any other character takes a column. -/
def advance (p : Position) (c : Char) : Position :=
  if c = '\n' then ⟨p.line + 1, 1⟩ else ⟨p.line, p.column + 1⟩

end Position

/-! ## Tokens -/

/-- What a token is. A number is capped at the largest 64-bit value. -/
inductive Token.Kind
  | keyword (k : Keyword)
  | string (text : String)
  | number (value : Nat)
  | newline
  | endOfInput
  | invalid (text : String)
  deriving DecidableEq, Repr

/-- How diagnostics call a token of this kind. -/
def Token.Kind.describe : Token.Kind → String
  | .keyword k => "keyword " ++ k.name
  | .string _ => "string"
  | .number n => "number " ++ Numeral.decimal n
  | .newline => "end of line"
  | .endOfInput => "end of input"
  | .invalid t => "invalid token '" ++ t ++ "'"

/-- A token and the place of its first character. -/
structure Token where
  kind : Token.Kind
  position : Position
  deriving DecidableEq, Repr

/-- Whether a token ends the script. -/
def Token.isEnd (t : Token) : Bool := t.kind = .endOfInput

end ScriptedModel.Script
