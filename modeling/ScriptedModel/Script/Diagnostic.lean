/-
What the parser has to say about a script: the remarks it makes on the way, and the fault that
ends it.
-/
import ScriptedModel.Logging.Level
import ScriptedModel.Script.Token

namespace ScriptedModel.Script

/-- The fault that makes a script unreadable: a place and what was expected there. -/
structure ParseError where
  position : Position
  message : String
  deriving DecidableEq, Repr

/-- The text shown for a fault. -/
def ParseError.display (e : ParseError) : String :=
  "Parse error at line " ++ Numeral.decimal e.position.line ++ ", column "
    ++ Numeral.decimal e.position.column ++ ": " ++ e.message

/-- A remark on a script that is read on. -/
inductive Diagnostic
  | skipped (token : Token)
  | abandoned (keyword : Keyword) (position : Position)
  | clamped (keyword : Keyword) (param : String) (value bounded : Nat)
  deriving DecidableEq, Repr

namespace Diagnostic

/-- How urgent a remark is. -/
def level : Diagnostic → Logging.Level
  | .skipped _ => .debug
  | .abandoned _ _ => .debug
  | .clamped _ _ _ _ => .warn

/-- The text of a remark. -/
def message : Diagnostic → String
  | .skipped t => "Skipping " ++ t.kind.describe
  | .abandoned k _ => "Abandoning " ++ k.name ++ " statement at invalid operand"
  | .clamped _ _ _ _ => "Operand outside catalog bounds, clamping"

/-- The named values that go with a remark. -/
def fields : Diagnostic → List (String × String)
  | .skipped t => place t.position
  | .abandoned _ p => place p
  | .clamped k param value bounded =>
    [("directive", k.name), ("param", param), ("value", Numeral.decimal value),
      ("clamped", Numeral.decimal bounded)]
where
  place (p : Position) : List (String × String) :=
    [("line", Numeral.decimal p.line), ("column", Numeral.decimal p.column)]

end Diagnostic

end ScriptedModel.Script
