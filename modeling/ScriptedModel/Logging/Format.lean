/-
How log lines are written: as text for people, or as one JSON object a line.
-/

namespace ScriptedModel.Logging

/-- A format of log lines. -/
inductive Format
  | plaintext
  | json
  deriving DecidableEq, Repr

namespace Format

/-- The name of a format. -/
def name : Format → String
  | .plaintext => "plaintext"
  | .json => "json"

/-- The format of a lower-case name. -/
def ofName? (s : String) : Option Format := [.plaintext, .json].find? (fun f => f.name == s)

/-- The format of a name in any case; no letter beyond ASCII has a lower-case form in the names. -/
def ofText? (s : String) : Option Format := ofName? s.toLower

/-- What is said of a text that names no format. -/
def refusal (s : String) : String := "Invalid log format: " ++ s ++ ". Use 'plaintext' or 'json'"

end Format

end ScriptedModel.Logging
