/-
What aliases stand for. An anchor gets as its number how many names there were before it, so that
a name used anew gets a new number and a name after that may get the same one. An alias stands for
the last anchor, wherever it stands, that has the number which the name had last.
-/
import ScriptedModel.Yaml.Token

namespace ScriptedModel.Yaml.Anchor

/-! ## Numbers -/

/-- The names so far with the numbers they had last. -/
abbrev Names := List (String × Nat)

/-- The names with a name used for the next anchor. -/
def Names.add (names : Names) (name : String) : Names :=
  (name, names.length) :: names.filter fun n => n.1 ≠ name

/-- The numbers of the anchors and of the aliases after some names, in the order of the text. -/
def numbersFrom? (names : Names) : List Token → Option (List Nat × List Nat)
  | [] => some ([], [])
  | .anchor name :: ts => do
    let (anchors, aliases) ← numbersFrom? (names.add name) ts
    return (names.length :: anchors, aliases)
  | .alias name :: ts => do
    let number ← names.lookup name
    let (anchors, aliases) ← numbersFrom? names ts
    return (anchors, number :: aliases)
  | _ :: ts => numbersFrom? names ts

/-- The place of the last of some numbers that is equal to one. -/
def lastPlace (numbers : List Nat) (n : Nat) : Nat :=
  numbers.length - 1 - numbers.reverse.idxOf n

/-- The place among the anchors that each alias stands for; none if a name is unknown. -/
def targets? (ts : List Token) : Option (List Nat) :=
  (numbersFrom? [] ts).map fun r => r.2.map (lastPlace r.1)

end ScriptedModel.Yaml.Anchor
