/-
JSON documents: what a text spells, before its strings and numbers are given values. A document
is built from tokens one at a time, the containers still open being kept on a stack. Its value
exists if every string is text, every number is finite and the nesting is within a limit; a
decoder that skips a part of a document asks nothing of that part.
-/
import ScriptedModel.Double.Decimal
import ScriptedModel.Json.Token
import ScriptedModel.Json.Value

namespace ScriptedModel.Json

/-- What a JSON text spells; members stand in the order of the text. -/
inductive Document
  | null
  | bool (value : Bool)
  | number (text : NumberText)
  | string (letters : List Letter)
  | array (items : List Document)
  | object (members : List (List Letter × Document))
  deriving Repr

namespace Document

/-! ## Assembly from tokens -/

/-- A container that is still open, its parts with the last first; an object waits for the value
of a name. -/
inductive Frame
  | array (items : List Document)
  | object (members : List (List Letter × Document)) (name : List Letter)
  deriving Repr

/-- What may come next, inside the containers that are open. -/
inductive State
  | value (stack : List Frame)
  | firstItem (stack : List Frame)
  | firstName (stack : List Frame)
  | name (members : List (List Letter × Document)) (stack : List Frame)
  | colon (members : List (List Letter × Document)) (name : List Letter) (stack : List Frame)
  | after (document : Document) (stack : List Frame)
  deriving Repr

/-- A token where a value has to begin. -/
def beginValue (stack : List Frame) : Token → Option State
  | .null => some (.after .null stack)
  | .bool b => some (.after (.bool b) stack)
  | .number n => some (.after (.number n) stack)
  | .string ls => some (.after (.string ls) stack)
  | .openBracket => some (.firstItem stack)
  | .openBrace => some (.firstName stack)
  | _ => none

/-- The state after a token, unless the token is out of place. -/
def step : State → Token → Option State
  | .value stack, t => beginValue stack t
  | .firstItem stack, .closeBracket => some (.after (.array []) stack)
  | .firstItem stack, t => beginValue (.array [] :: stack) t
  | .firstName stack, .closeBrace => some (.after (.object []) stack)
  | .firstName stack, .string ls => some (.colon [] ls stack)
  | .name ms stack, .string ls => some (.colon ms ls stack)
  | .colon ms ls stack, .colon => some (.value (.object ms ls :: stack))
  | .after d (.array ds :: stack), .comma => some (.value (.array (d :: ds) :: stack))
  | .after d (.array ds :: stack), .closeBracket => some (.after (.array (d :: ds).reverse) stack)
  | .after d (.object ms ls :: stack), .comma => some (.name ((ls, d) :: ms) stack)
  | .after d (.object ms ls :: stack), .closeBrace =>
    some (.after (.object ((ls, d) :: ms).reverse) stack)
  | _, _ => none

/-- The document that is complete, if no container is open. -/
def State.complete? : State → Option Document
  | .after d [] => some d
  | _ => none

/-- The document that a list of tokens spells. -/
def ofTokens? (ts : List Token) : Option Document := do
  let s ← ts.foldlM step (.value [])
  s.complete?

/-- The document that a source spells. -/
def ofSource? (r : Source) : Option Document := (Token.ofSource? r).bind ofTokens?

end Document

/-! ## Numbers -/

namespace NumberText

/-- The largest significand that is kept exactly. -/
def significandCeiling : Nat := UInt64.size - 1

/-- Appends digits to a number while it stays within the ceiling; what is left is dropped. -/
def appendDigits (n : Nat) : List Char → Nat × List Char
  | [] => (n, [])
  | d :: ds =>
    let m := n * 10 + Numeral.digitValue d
    if significandCeiling < m then (n, d :: ds) else appendDigits m ds

/-- The power of ten that an exponent spells. -/
def power : Option (Bool × List Char) → Int
  | none => 0
  | some (true, ds) => 0 - (Numeral.value 10 ds : Int)
  | some (false, ds) => Numeral.value 10 ds

/-- The number that the digits spell: an integer if it is written as one and fits 64 bits, else a
double, of which digits beyond the ceiling are dropped. None if the double overflows. -/
def number? (t : NumberText) : Option Number :=
  let (whole, dropped) := appendDigits 0 t.whole
  if t.fraction = [] ∧ t.exponent? = none ∧ dropped = [] ∧
      (t.negative → 0 < whole ∧ whole ≤ UInt64.size / 2) then
    some (.integer (if t.negative then 0 - (whole : Int) else whole))
  else
    let (significand, left) := appendDigits whole t.fraction
    let places : Int := (t.fraction.length : Int) - left.length
    (Double.ofDecimal? t.negative significand (dropped.length - places + power t.exponent?)).map .double

end NumberText

/-! ## Strings -/

namespace Letter

/-- Whether a code unit is the first of a pair. -/
def isHigh (u : Nat) : Bool := 0xD800 ≤ u ∧ u < 0xDC00

/-- Whether a code unit is the second of a pair. -/
def isLow (u : Nat) : Bool := 0xDC00 ≤ u ∧ u < 0xE000

/-- The characters of a string; a code unit of a pair stands beside its other half, and a gap is
no character. -/
def text? : List Letter → Option (List Char)
  | [] => some []
  | .plain c :: ls => (text? ls).map (c :: ·)
  | .unit u :: .unit v :: ls =>
    if isHigh u then
      if isLow v then (text? ls).map (Char.ofNat (0x10000 + (u - 0xD800) * 0x400 + (v - 0xDC00)) :: ·)
      else none
    else if isLow u then none
    else (text? (.unit v :: ls)).map (Char.ofNat u :: ·)
  | .unit u :: ls => if isHigh u || isLow u then none else (text? ls).map (Char.ofNat u :: ·)
  | .gap :: _ => none

/-- The text of a string. -/
def string? (ls : List Letter) : Option String := (text? ls).map String.ofList

end Letter

/-! ## Values -/

namespace Document

mutual

/-- The value of a document in which at most `limit` containers stand inside each other. Members
are sorted, and of those with one name the last is kept. -/
def value? (limit : Nat) : Document → Option Value
  | .null => some .null
  | .bool b => some (.bool b)
  | .number t => t.number?.map .number
  | .string ls => (Letter.string? ls).map .string
  | .array ds =>
    match limit with
    | 0 => none
    | limit + 1 => (items? limit ds).map .array
  | .object ms =>
    match limit with
    | 0 => none
    | limit + 1 => (members? limit ms).map Value.sorted

/-- The values of the items of an array. -/
def items? (limit : Nat) : List Document → Option (List Value)
  | [] => some []
  | d :: ds =>
    match value? limit d with
    | none => none
    | some v => (items? limit ds).map (v :: ·)

/-- The values of the members of an object, in the order of the text. -/
def members? (limit : Nat) : List (List Letter × Document) → Option (List (String × Value))
  | [] => some []
  | (ls, d) :: ms =>
    match Letter.string? ls, value? limit d with
    | some k, some v => (members? limit ms).map ((k, v) :: ·)
    | _, _ => none

end

/-- The greatest nesting of a text that is read. -/
def nestingLimit : Nat := 127

end Document

/-- The value that a text spells. -/
def Value.ofText? (text : String) : Option Value :=
  (Document.ofSource? (sourceOf text)).bind (Document.value? Document.nestingLimit)

end ScriptedModel.Json
