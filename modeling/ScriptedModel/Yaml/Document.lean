/-
A document: the tree that the tokens of a text spell. The collections that are open are kept on a
stack, and each token goes to the innermost one, after what is left out before it.
-/
import ScriptedModel.Yaml.Anchor
import ScriptedModel.Yaml.Frame

namespace ScriptedModel.Yaml

/-- A document: its node, and the nodes that aliases stand for, by number. -/
structure Document where
  root : Node
  named : List (Nat × Node)
  deriving Repr

namespace Document

/-! ## Directives -/

/-- What the tags of common types begin with. -/
def commonTag : String := "tag:yaml.org,2002:"

/-- What the handles of tags stand for that need no directive. -/
def commonHandles : List (String × String) := [("!", "!"), ("!!", commonTag)]

/-- What the handles of tags stand for after some directives. The version is given once at most,
and so is what a handle stands for. -/
def handles? : (versioned : Bool) → List (String × String) → List Directive →
    Option (List (String × String))
  | _, handles, [] => some (handles ++ commonHandles)
  | versioned, handles, .version major minor :: ds =>
    if ¬ versioned ∧ major = 1 ∧ (minor = 1 ∨ minor = 2) then handles? true handles ds else none
  | versioned, handles, .handle handle meaning :: ds =>
    if (handles.lookup handle).isSome then none
    else handles? versioned (handles ++ [(handle, meaning)]) ds

/-- The directives that come first, and the tokens after them. -/
def splitDirectives : List Token → List Directive × List Token
  | .directive d :: ts => (d :: (splitDirectives ts).1, (splitDirectives ts).2)
  | ts => ([], ts)

/-! ## Reading -/

/-- What is said of a node before it: its tag, and whether it is an anchor, and which one. -/
structure Properties where
  tag? : Option String
  anchor? : Option Nat
  deriving DecidableEq, Repr

/-- Nothing said. -/
def Properties.none : Properties := ⟨.none, .none⟩

/-- How far a document is read: what the handles of tags stand for, the collections that are open
with their anchors, what is said of the next node, the number of anchors so far, what the further
aliases stand for, the nodes that are anchors, and the document once it is complete. -/
structure State where
  handles : List (String × String)
  frames : List (Option Nat × Frame)
  properties : Properties
  anchors : Nat
  targets : List Nat
  named : List (Nat × Node)
  root? : Option Node
  deriving Repr

namespace State

/-- Whether a node may come next. -/
def waits (s : State) : Bool := s.frames.head?.any (·.2.waits)

/-- The state with a node where it was waited for. -/
def put? (s : State) (anchor? : Option Nat) (n : Node) : Option State :=
  let s := { s with named := (anchor?.map (·, n)).toList ++ s.named }
  match s.frames with
  | [(_, .document _)] => some { s with frames := [], root? := some n }
  | (a?, f) :: fs => (f.put? n).map fun f => { s with frames := (a?, f) :: fs }
  | [] => none

/-- The state with a node of which something was said. -/
def putWith? (s : State) (n : Node) : Option State :=
  if s.waits then put? { s with properties := .none } s.properties.anchor? n else none

/-- The state with a scalar. -/
def scalar? (s : State) (style : Style) (text : String) : Option State :=
  s.putWith? (.scalar style (s.properties.tag?.getD "") text)

/-- The state with a collection open, where a node may come. -/
def open? (s : State) (f : Frame) : Option State :=
  if s.waits then
    some { s with frames := (s.properties.anchor?, f) :: s.frames, properties := .none }
  else none

/-- The state with the innermost collection closed. -/
def closed? (s : State) : Option State :=
  match s.frames with
  | (a?, f) :: fs => do put? { s with frames := fs } a? (← f.node?)
  | [] => none

/-- The state with the innermost collection at another stage. -/
def replaced (s : State) (f : Frame) : State :=
  { s with frames := (s.frames.head?.bind Prod.fst, f) :: s.frames.tail }

/-! ## What is left out -/

/-- Whether a token goes on with a node of which something was said. -/
def continues (s : State) : Token → Bool
  | .scalar _ _ | .openBracket | .openBrace | .openList | .openRecord => true
  | .entry => s.frames.head?.any (·.2.waitsLoosely)
  | .anchor _ => s.properties.anchor?.isNone
  | .tag _ => s.properties.tag?.isNone
  | _ => false

/-- The state before a token, with an empty node if the node before it is left out. -/
def filled? (t : Token) (s : State) : Option State :=
  let isEmpty : Bool :=
    if s.properties = .none then s.frames.head?.any (·.2.isLeftOut t) else ¬ s.continues t
  if isEmpty then s.scalar? .plain "" else some s

/-- The state before a token, with a loose list closed that it does not go on with. -/
def unloosed? (t : Token) (s : State) : Option State :=
  match s.frames with
  | (_, .entries true _ false) :: _ => if t = .entry then some s else s.closed?
  | _ => some s

/-- The state before a token, with an empty value for a key that no colon follows. -/
def valued? (t : Token) (s : State) : Option State :=
  match s.frames with
  | (_, .brackets ns (.colon k)) :: _ =>
    if t = .value then some s else (s.replaced (.brackets ns (.value k))).put? none .empty
  | (_, .members braces ms (.colon k)) :: _ =>
    if t = .value then some s else (s.replaced (.members braces ms (.value k))).put? none .empty
  | _ => some s

/-! ## Tokens -/

/-- What a tag stands for, if its handle is known. -/
def tag? (s : State) (name : TagName) : Option String :=
  if name.handle = "" then some name.suffix else (s.handles.lookup name.handle).map (· ++ name.suffix)

/-- Reads an entry, which may open a loose list. -/
def entry? (s : State) : Option State :=
  match s.frames with
  | (_, .entries loose ns false) :: _ => some (s.replaced (.entries loose ns true))
  | (_, f) :: _ => if f.waitsLoosely then s.open? (.entries true [] true) else none
  | [] => none

/-- Reads the mark of a key. -/
def key? (s : State) : Option State :=
  match s.frames with
  | (_, .brackets ns (.member true)) :: _ => some (s.replaced (.brackets ns .key))
  | (_, .members braces ms (.member true)) :: _ => some (s.replaced (.members braces ms .key))
  | _ => none

/-- Reads the mark of a value. -/
def value? (s : State) : Option State :=
  match s.frames with
  | (_, .brackets ns (.colon k)) :: _ => some (s.replaced (.brackets ns (.value k)))
  | (_, .members braces ms (.colon k)) :: _ => some (s.replaced (.members braces ms (.value k)))
  | _ => none

/-- Reads a comma. -/
def comma? (s : State) : Option State :=
  match s.frames with
  | (_, .brackets ns (.member false)) :: _ => some (s.replaced (.brackets ns (.member true)))
  | (_, .members true ms (.member false)) :: _ => some (s.replaced (.members true ms (.member true)))
  | _ => none

/-- Reads the end of a collection by columns. -/
def close? (s : State) : Option State :=
  match s.frames with
  | (_, .entries false _ _) :: _ | (_, .members false _ _) :: _ => s.closed?
  | _ => none

/-- Reads a closing bracket. -/
def closeBracket? (s : State) : Option State :=
  match s.frames with
  | (_, .brackets _ _) :: _ => s.closed?
  | _ => none

/-- Reads a closing brace. -/
def closeBrace? (s : State) : Option State :=
  match s.frames with
  | (_, .members true _ _) :: _ => s.closed?
  | _ => none

/-- Reads an alias. -/
def alias? (s : State) : Option State :=
  match s.targets with
  | target :: targets => putWith? { s with targets } (.alias target)
  | [] => none

/-- Reads an anchor. -/
def anchor? (s : State) : Option State :=
  if s.waits then
    some { s with
      properties := { s.properties with anchor? := some s.anchors }, anchors := s.anchors + 1 }
  else none

/-- Reads a tag. -/
def tagged? (s : State) (name : TagName) : Option State :=
  if s.waits then
    (s.tag? name).map fun tag => { s with properties := { s.properties with tag? := some tag } }
  else none

/-- Reads a token before which nothing is left out. -/
def read? (t : Token) (s : State) : Option State :=
  match t with
  | .openList => s.open? (.entries false [] false)
  | .openRecord => s.open? (.members false [] (.member true))
  | .close => s.close?
  | .entry => s.entry?
  | .key => s.key?
  | .value => s.value?
  | .openBracket => s.open? (.brackets [] (.member true))
  | .closeBracket => s.closeBracket?
  | .openBrace => s.open? (.members true [] (.member true))
  | .closeBrace => s.closeBrace?
  | .comma => s.comma?
  | .scalar style text => s.scalar? style text
  | .anchor _ => s.anchor?
  | .alias _ => s.alias?
  | .tag name => s.tagged? name
  | .stop => if s.frames = [] then some s else none
  | .start | .directive _ => none

/-- The state after a token. -/
def step? (s : State) (t : Token) : Option State :=
  if s.properties = .none ∧ s.frames.head?.any (·.2.isOmission t) then s.put? none .empty
  else do (← (← (← s.filled? t).unloosed? t).valued? t).read? t

/-- The document after its last token, if it is complete. -/
def document? (s : State) : Option Document := do
  let s ← s.filled? .stop
  return ⟨← s.root?, s.named⟩

end State

/-- The document that tokens spell after directives. -/
def bodyOf? (handles : List (String × String)) (announced : Bool) (ts : List Token) :
    Option Document := do
  let s : State := ⟨handles, [(none, .document announced)], .none, 0, ← Anchor.targets? ts, [], none⟩
  (← ts.foldlM State.step? s).document?

/-- The document that tokens spell. It has to be announced after directives; without any tokens it
is empty. -/
def ofTokens? (ts : List Token) : Option Document := do
  let (directives, rest) := splitDirectives ts
  let handles ← handles? false [] directives
  match directives, rest with
  | _, .start :: rest => bodyOf? handles true rest
  | [], [] => some ⟨.empty, []⟩
  | [], rest => bodyOf? handles false rest
  | _ :: _, _ => none

/-- The document that a text spells. -/
def ofText? (text : String) : Option Document := do
  ofTokens? (← Token.ofText? text)

/-! ## Parts -/

/-- The node of a document, or the one that it is an alias for. -/
def target (d : Document) : Node :=
  match d.root with
  | .alias a => (d.named.lookup a).getD .empty
  | n => n

/-- The text of a scalar. -/
def text? (d : Document) : Option String :=
  match d.target with
  | .scalar _ _ text => some text
  | _ => none

/-- The text of a scalar that may spell a value of a type: a plain one, or a literal one that is
tagged with the type. -/
def valueOf? (type : String) (d : Document) : Option String :=
  match d.target with
  | .scalar .plain _ text => some text
  | .scalar .literal tag text => if tag = commonTag ++ type then some text else none
  | _ => none

end Document

end ScriptedModel.Yaml
