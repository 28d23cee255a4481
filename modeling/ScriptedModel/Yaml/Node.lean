/-
The tree that a YAML text spells. Anchors and aliases are kept as numbers, so that a tree is finite
where an alias stands inside the node that it stands for.
-/
import ScriptedModel.Yaml.Token

namespace ScriptedModel.Yaml

/-- A scalar with its tag, a list, a record of keys and values in the order of the text, or an
alias for the node with the anchor of a number. -/
inductive Node
  | scalar (style : Style) (tag : String) (text : String)
  | list (items : List Node)
  | record (members : List (Node × Node))
  | alias (anchor : Nat)
  deriving Repr

/-- What stands where a node is left out. -/
def Node.empty : Node := .scalar .plain "" ""

end ScriptedModel.Yaml
