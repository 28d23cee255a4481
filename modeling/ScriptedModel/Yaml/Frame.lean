/-
Collections that are open, and what may come next in them. A node may be left out wherever what
comes next shows where it would stand.
-/
import ScriptedModel.Yaml.Node

namespace ScriptedModel.Yaml

/-- What comes next in a collection whose members may be keys with values: a member if a comma
came before it, a key, the colon after a key, or a value. -/
inductive Stage
  | member (separated : Bool)
  | key
  | colon (key : Node)
  | value (key : Node)
  deriving Repr

/-- What is open, its parts with the last first: the document, which may be left out if it was
announced; a list by columns, which is loose if it stands in the columns of a record, and may wait
for the node of an entry; a list in brackets, and a record by columns or in braces. -/
inductive Frame
  | document (announced : Bool)
  | entries (loose : Bool) (items : List Node) (waiting : Bool)
  | brackets (items : List Node) (stage : Stage)
  | members (braces : Bool) (members : List (Node × Node)) (stage : Stage)
  deriving Repr

namespace Frame

/-- Whether a node may come next. -/
def waits : Frame → Bool
  | .document _ => true
  | .entries _ _ waiting => waiting
  | .brackets _ (.member separated) => separated
  | .members braces _ (.member separated) => braces && separated
  | .brackets _ stage | .members _ _ stage =>
    match stage with
    | .key | .value _ => true
    | _ => false

/-- Whether a loose list may come next. -/
def waitsLoosely : Frame → Bool
  | .members false _ .key | .members false _ (.value _) => true
  | _ => false

/-- What is open when the node that was waited for is there; the document is complete then. -/
def put? (n : Node) : Frame → Option Frame
  | .entries loose ns true => some (.entries loose (n :: ns) false)
  | .brackets ns (.member true) => some (.brackets (n :: ns) (.member false))
  | .brackets ns .key => some (.brackets ns (.colon n))
  | .brackets ns (.value k) => some (.brackets (.record [(k, n)] :: ns) (.member false))
  | .members true ms (.member true) => some (.members true ((n, .empty) :: ms) (.member false))
  | .members braces ms .key => some (.members braces ms (.colon n))
  | .members braces ms (.value k) => some (.members braces ((k, n) :: ms) (.member (¬ braces)))
  | _ => none

/-- The collection as a node. -/
def node? : Frame → Option Node
  | .entries _ ns false => some (.list ns.reverse)
  | .brackets ns (.member _) => some (.list ns.reverse)
  | .members _ ms (.member _) => some (.record ms.reverse)
  | _ => none

/-- Whether a token shows that the node that is waited for is left out. -/
def isLeftOut (t : Token) : Frame → Bool
  | .document announced => announced && t = .stop
  | .entries loose _ true =>
    t = .entry || t = .close || (loose && (t = .key || t = .value))
  | .members false _ .key | .members false _ (.value _) => t = .key || t = .value || t = .close
  | .members true _ .key => t = .value || t = .comma || t = .closeBrace
  | .members true _ (.value _) => t = .comma || t = .closeBrace
  | .brackets _ (.value _) => t = .comma || t = .closeBracket
  | _ => false

/-- Whether a token stands for the key that is left out in brackets, and for nothing else. -/
def isOmission (t : Token) : Frame → Bool
  | .brackets _ .key => t = .value || t = .comma || t = .closeBracket
  | _ => false

end Frame

end ScriptedModel.Yaml
