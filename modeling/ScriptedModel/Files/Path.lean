/-
Paths of files: names between slashes, counted from the root if a slash comes first.
-/
import ScriptedModel.Text.Split

namespace ScriptedModel.Files.Path

/-- Whether a path is counted from the root. -/
def isAbsolute (path : String) : Bool := path.toList.head? = some '/'

/-- A path counted from another. An absolute one stays as it is, and the slash between the two is
not doubled. -/
def join (base path : String) : String :=
  if isAbsolute path || base = "" then path
  else if base.toList.getLast? = some '/' then base ++ path
  else base ++ "/" ++ path

/-- The names of a path; empty names and single dots lead nowhere and are left out. -/
def names (path : String) : List String :=
  ((Split.pieces '/' path.toList).map String.ofList).filter fun n => n ≠ "" && n ≠ "."

/-- What stands after the last slash of a path. -/
def ending (path : String) : String := String.ofList ((Split.pieces '/' path.toList).getLast?.getD [])

end ScriptedModel.Files.Path
