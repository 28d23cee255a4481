/-
Which events are logged. A filter is a list of directives; of those that speak of an event the most
specific one decides. Directives that ask for a span or a value have no say, as events stand in no
spans, but they are kept.
-/
import ScriptedModel.Logging.Directive

namespace ScriptedModel.Logging

/-- Directives that decide on events by themselves and those that decide on what happens in spans,
which may be the same. The most specific ones are first. -/
structure Filter where
  statics : List Directive
  dynamics : List Directive
  deriving DecidableEq, Repr

namespace Filter

/-! ## Reading -/

/-- Puts a directive in its place, over one that is as specific and has the same texts. -/
def insert (d : Directive) : List Directive → List Directive
  | [] => [d]
  | e :: es =>
    match d.compare e with
    | .gt => d :: e :: es
    | .eq => d :: es
    | .lt => e :: insert d es

/-- Directives in their order. -/
def ordered (ds : List Directive) : List Directive := ds.foldl (fun es d => insert d es) []

/-- The directives that decide on events by themselves; of those that decide on what happens in
spans, too, the later ones. -/
def staticOnes (ds : List Directive) : List Directive :=
  ds.filter (¬ ·.isDynamic) ++ ds.filter fun d => d.isDynamic && d.isStatic

/-- The filter of directives; without any the most urgent events pass. -/
def ofDirectives (ds : List Directive) : Filter :=
  if ds = [] then ⟨[⟨none, none, none, some .error⟩], []⟩
  else ⟨ordered (staticOnes ds), ordered (ds.filter Directive.isDynamic)⟩

/-- The pieces of a text that spell directives. -/
def pieces (text : String) : List (List Char) :=
  (Split.pieces ',' text.toList).filter (fun p => ¬ p.isEmpty)

/-- The filter that a text spells, if each piece spells a directive. -/
def ofText? (text : String) : Option Filter := ((pieces text).mapM Directive.ofText?).map ofDirectives

/-- The filter of those pieces of a text that spell directives. -/
def ofPieces (text : String) : Filter := ofDirectives ((pieces text).filterMap Directive.ofText?)

/-- The filter for a component unless another is asked for: a level for all targets, and the same
one for the component's own, in whose name underscores stand for hyphens. -/
def forComponent (component : String) (l : Level) : Filter :=
  let target := component.map fun c => if c = '-' then '_' else c
  ofPieces (l.heading ++ "," ++ target ++ "=" ++ l.heading)

/-! ## Matching -/

/-- Whether events of a target with some fields pass at a level. -/
def enables (f : Filter) (target : String) (fields : List String) (l : Level) : Bool :=
  (f.statics.find? (fun d => d.covers target fields)).any (fun d => d.passes l)

/-! ## Writing -/

/-- The text of a filter. -/
def text (f : Filter) : String := ",".intercalate ((f.statics ++ f.dynamics).map Directive.text)

end Filter

end ScriptedModel.Logging
