/-
The named values of the query of an address: pieces between ampersands, each a name and a value
around its first equals sign, in which a plus sign is a space and bytes are percent escapes.
-/
import ScriptedModel.Text.Percent
import ScriptedModel.Text.Split

namespace ScriptedModel.FormEncoding

/-! ## Reading -/

/-- The byte of a plus sign. -/
def plus : UInt8 := 43

/-- The byte of a space. -/
def space : UInt8 := 32

/-- The text of a name or a value. -/
def component (cs : List Char) : String :=
  String.ofList (Utf8.decodeLossy
    (Percent.unescape ((Utf8.encode cs).map fun b => if b = plus then space else b)))

/-- The name and the value that a piece of a query spells; without a sign the value is empty. -/
def pair (cs : List Char) : String × String :=
  let (name, value) := (Split.atFirst? '=' cs).getD (cs, [])
  (component name, component value)

/-- The named values of a query, in order; empty pieces are passed over. -/
def pairs (query : String) : List (String × String) :=
  ((Split.pieces '&' query.toList).filter (fun piece => ¬ piece.isEmpty)).map pair

/-- The first value of a name. -/
def value? (query name : String) : Option String :=
  ((pairs query).find? (fun p => p.1 == name)).map Prod.snd

/-! ## Writing -/

/-- Whether a character of a name or a value stands for itself. -/
def isPlain (c : Char) : Bool := c.isAlphanum || c = '*' || c = '-' || c = '.' || c = '_'

/-- A name or a value as it is written in a query. -/
def encode (cs : List Char) : List Char :=
  cs.flatMap fun c =>
    if isPlain c then [c]
    else if c = ' ' then ['+']
    else (Utf8.encode [c]).flatMap Percent.escape

end ScriptedModel.FormEncoding
