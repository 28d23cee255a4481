/-
Fields of records. A record is written with its fields named, in any order and none twice, or as
the list of its fields in their order. Fields may be left out, of a list the last ones.
-/

namespace ScriptedModel.Field

/-- What a name is given, if it is given something at most once. -/
def named? {δ : Type} (members : List (String × δ)) (name : String) : Option (Option δ) :=
  match members.filter (fun m => m.1 == name) with
  | [] => some none
  | [m] => some (some m.2)
  | _ => none

/-- What each of `count` fields is given by a list, if it is not too long. -/
def inOrder? {δ : Type} (count : Nat) (items : List δ) : Option (List (Option δ)) :=
  if items.length ≤ count then some (items.map some ++ List.replicate (count - items.length) none)
  else none

/-- Reads a field; the default stands in for one that is left out. -/
def readOr {δ α : Type} (default : α) (read : δ → Option α) : Option δ → Option α
  | none => some default
  | some d => read d

end ScriptedModel.Field
