/-
Texts cut at a separator. What is cut is the text less the separators, so joining the pieces with
separators restores the text.
-/

namespace ScriptedModel.Split

/-- The pieces between the separators, one more than there are separators. -/
def pieces (separator : Char) : List Char → List (List Char)
  | [] => [[]]
  | c :: cs =>
    if c = separator then [] :: pieces separator cs
    else match pieces separator cs with
      | [] => [[c]]
      | piece :: rest => (c :: piece) :: rest

/-- What stands before and after the first separator. -/
def atFirst? (separator : Char) : List Char → Option (List Char × List Char)
  | [] => none
  | c :: cs =>
    if c = separator then some ([], cs)
    else (atFirst? separator cs).map fun p => (c :: p.1, p.2)

/-- What stands before and after the last separator. -/
def atLast? (separator : Char) (cs : List Char) : Option (List Char × List Char) :=
  (atFirst? separator cs.reverse).map fun p => (p.2.reverse, p.1.reverse)

end ScriptedModel.Split
