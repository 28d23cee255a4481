/-
JSON values. A number is an integer or a finite double; an object is its members in order.
-/
import ScriptedModel.Double.Basic

namespace ScriptedModel.Json

/-- A number: an integer of at most 64 bits, or a finite double. -/
inductive Number
  | integer (value : Int)
  | double (value : Double)
  deriving DecidableEq, Repr

/-- A JSON value. -/
inductive Value
  | null
  | bool (value : Bool)
  | number (value : Number)
  | string (text : String)
  | array (items : List Value)
  | object (members : List (String × Value))
  deriving Repr

namespace Value

/-- A natural number as a value. -/
def nat (n : Nat) : Value := .number (.integer n)

/-- A text, or null. -/
def text? : Option String → Value
  | some s => .string s
  | none => .null

/-- The first member of a name, if the value is an object that has one. -/
def member? (v : Value) (name : String) : Option Value :=
  match v with
  | .object members => (members.find? (fun m => m.1 == name)).map Prod.snd
  | _ => none

end Value

/-! ## Members sorted by name -/

/-- Puts a member in its place among members sorted by name, over one of the same name. -/
def insertMember (name : String) (v : Value) : List (String × Value) → List (String × Value)
  | [] => [(name, v)]
  | m :: ms =>
    if name < m.1 then (name, v) :: m :: ms
    else if name = m.1 then (name, v) :: ms
    else m :: insertMember name v ms

/-- The members sorted by name, the last of each name alone. Names are ordered by code point. -/
def sortMembers (ms : List (String × Value)) : List (String × Value) :=
  ms.foldl (fun sorted m => insertMember m.1 m.2 sorted) []

/-- The object with these members, sorted by name. -/
def Value.sorted (ms : List (String × Value)) : Value := .object (sortMembers ms)

end ScriptedModel.Json
