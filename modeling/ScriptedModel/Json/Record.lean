/-
Records in JSON documents. A record has named fields; it is written as an object, whose other
members are passed over, or as an array of the fields in their order, of which the last may be
left out. Each reader of a field accepts one shape of document and nothing in its place.
-/
import ScriptedModel.Field
import ScriptedModel.Json.Document

namespace ScriptedModel.Json.Document

/-! ## Fields -/

/-- The documents of the fields with these names, in the order of the names. -/
def record? (names : List String) : Document → Option (List (Option Document))
  | .object ms => do
    let named ← ms.mapM fun m => (Letter.string? m.1).map (·, m.2)
    names.mapM (Field.named? named)
  | .array ds => Field.inOrder? names.length ds
  | _ => none

/-! ## Readers -/

/-- The text of a string. -/
def string? : Document → Option String
  | .string ls => Letter.string? ls
  | _ => none

/-- The name of a variant without content: a text, or an object that gives null to the name. -/
def variant? : Document → Option String
  | .string ls => Letter.string? ls
  | .object [(ls, .null)] => Letter.string? ls
  | _ => none

/-- A truth value. -/
def bool? : Document → Option Bool
  | .bool b => some b
  | _ => none

/-- A natural number up to a bound, written without fraction and exponent. -/
def natural? (bound : Nat) : Document → Option Nat
  | .number t =>
    match t.number? with
    | some (.integer (.ofNat n)) => if n ≤ bound then some n else none
    | _ => none
  | _ => none

/-- Something that may be null. -/
def nullable? {α : Type} (read : Document → Option α) : Document → Option (Option α)
  | .null => some none
  | d => (read d).map some

/-- The items of an array. -/
def list? {α : Type} (read : Document → Option α) : Document → Option (List α)
  | .array ds => ds.mapM read
  | _ => none

end ScriptedModel.Json.Document
