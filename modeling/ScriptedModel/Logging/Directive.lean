/-
Directives of a filter: a level for the targets that begin with a text, or for all of them, which
may be bound to a span or to a field of an event.
-/
import ScriptedModel.Logging.FieldValue
import ScriptedModel.Logging.Level
import ScriptedModel.Text.Alphanumeric
import ScriptedModel.Text.Blank
import ScriptedModel.Text.Split
import ScriptedModel.Text.Utf8

namespace ScriptedModel.Logging

/-! ## Fields -/

/-- What is asked of a field: that there is one of a name, and maybe that it has a value. -/
structure FieldMatch where
  name : String
  value? : Option FieldValue
  deriving DecidableEq, Repr

namespace FieldMatch

/-- What a text asks of a field, a name and maybe an equals sign and a value. -/
def ofText? (s : String) : Option FieldMatch :=
  if s = "" then none
  else match Split.pieces '=' s.toList with
    | name :: value :: _ =>
      (FieldValue.ofText? (String.ofList value)).map fun v => ⟨String.ofList name, some v⟩
    | _ => some ⟨s, none⟩

/-- The text of what is asked of a field. -/
def text (f : FieldMatch) : String := f.name ++ f.value?.elim "" fun v => "=" ++ v.text

/-- Compares what is asked of fields: what asks for a value comes after what does not. -/
def compare (f g : FieldMatch) : Ordering :=
  (Ord.compare f.value?.isSome g.value?.isSome).then
    ((Ord.compare f.name g.name).then (Ord.compare f.value? g.value?))

instance : Ord FieldMatch := ⟨compare⟩

end FieldMatch

/-! ## Directives -/

/-- A level for the targets that begin with a text, or for all; without a level nothing passes. A
span or a field may be asked for, too. -/
structure Directive where
  target? : Option String
  span? : Option String
  field? : Option FieldMatch
  level? : Option Level
  deriving DecidableEq, Repr

namespace Directive

/-- Lets everything pass. -/
def all : Directive := ⟨none, none, none, some .trace⟩

/-- Whether a directive decides on events by themselves: it asks for no span and no value. -/
def isStatic (d : Directive) : Bool := d.span?.isNone && d.field?.all (·.value?.isNone)

/-- Whether a directive decides on what happens in a span. -/
def isDynamic (d : Directive) : Bool := d.span?.isSome || d.field?.isSome

/-- Compares directives by how specific they are: the length of the target in bytes, where no
target is less than any, whether a span and whether a field is asked for; and else by their
texts. -/
def compare (d e : Directive) : Ordering :=
  let size (f : Directive) : Option Nat := f.target?.map String.utf8ByteSize
  (Ord.compare (size d) (size e)).then <|
    (Ord.compare d.span?.isSome e.span?.isSome).then <|
    (Ord.compare d.field?.isSome e.field?.isSome).then <|
    (Ord.compare d.target? e.target?).then <|
    (Ord.compare d.span? e.span?).then (Ord.compare d.field? e.field?)

/-! ## Reading -/

/-- The level that a text names: a number from zero, which is none, to five, or a name in any case;
the empty text names the most urgent one. -/
def levelOf? (s : String) : Option (Option Level) :=
  let digits := if s.toList.head? = some '+' then s.toList.drop 1 else s.toList
  match (Numeral.value? 10 digits).bind fun n =>
      (none :: Level.all.map some).find? (fun l => l.elim 0 Level.verbosity = n) with
  | some l => some l
  | none =>
    if s = "" then some (some .error)
    else if s.toLower = "off" then some none
    else (Level.ofName? s.toLower).map some

/-- Whether a target may begin with a character. -/
def isInitial (c : Char) : Bool := ['-', ':', '_'].contains c || Alphanumeric.isAlphanumeric c

/-- What is being read, from which byte on: a level or a target, a span, a field, what follows a
field or the closing bracket, or the level after an equals sign. -/
inductive Place
  | start
  | first
  | span (start : Nat)
  | field (start : Nat)
  | afterField
  | afterBracket
  | level (start : Nat)
  deriving DecidableEq, Repr

/-- How far a directive is read, in bytes. -/
structure Reading where
  directive : Directive
  place : Place
  offset : Nat
  deriving Repr

/-- The text between two places of a text of bytes. -/
def between (bytes : List UInt8) (start stop : Nat) : String :=
  String.ofList (Utf8.decodeLossy ((bytes.take stop).drop start))

namespace Reading

/-- Reads a character. The parts of the directive are cut out of the bytes of its text. -/
def step? (bytes : List UInt8) (r : Reading) (c : Char) : Option Reading :=
  let d := r.directive
  let i := r.offset
  let next (d : Directive) (p : Place) : Option Reading := some ⟨d, p, i + c.utf8Size⟩
  match r.place with
  | .start => if c = '[' then next d (.span (i + 1)) else if isInitial c then next d .first else none
  | .first =>
    if c = '=' then next { d with target? := some (between bytes 0 i) } (.level (i + 1))
    else if c = '[' then next { d with target? := some (between bytes 0 i) } (.span (i + 1))
    else next d .first
  | .span start =>
    if c = ']' then next { d with span? := some (between bytes start i) } .afterBracket
    else if c = '\x7b' then
      next { d with span? := (some (between bytes start i)).filter (· ≠ "") } (.field (i + 1))
    else next d (.span start)
  | .field start =>
    if c = '\x7d' then do
      next { d with field? := some (← FieldMatch.ofText? (between bytes start i)) } .afterField
    else next d (.field start)
  | .afterField => if c = ']' then next d .afterBracket else none
  | .afterBracket => if c = '=' then next d (.level (i + 1)) else none
  | .level start => next d (.level start)

/-- The directive at the end of its text: what is no level is a target, of which everything
passes, and so does everything where a level is left out. -/
def directive? (bytes : List UInt8) (r : Reading) : Option Directive :=
  match r.place with
  | .first =>
    let text := between bytes 0 bytes.length
    match levelOf? text with
    | some l => some { r.directive with level? := l }
    | none => some { r.directive with target? := some text }
  | .level start =>
    let text := between bytes start bytes.length
    if text = "" then some r.directive
    else (levelOf? text).map ({ r.directive with level? := · })
  | .afterBracket => some r.directive
  | _ => none

end Reading

/-- The directive that a text spells. Blanks around it do not count where its parts are looked
for, but they do where these are cut out. -/
def ofText? (cs : List Char) : Option Directive := do
  let bytes := Utf8.encode cs
  (← (Blank.trim cs).foldlM (Reading.step? bytes) ⟨all, .start, 0⟩).directive? bytes

/-! ## Matching -/

/-- Whether a directive speaks of the events of a target that have some fields. -/
def covers (d : Directive) (target : String) (fields : List String) : Bool :=
  d.target?.all (fun t => t.toList.isPrefixOf target.toList) &&
    d.field?.all (fun f => fields.contains f.name)

/-- Whether a directive lets a level pass. -/
def passes (d : Directive) (l : Level) : Bool := d.level?.any (fun m => l.verbosity ≤ m.verbosity)

/-! ## Writing -/

/-- The text of a directive. -/
def text (d : Directive) : String :=
  let field := d.field?.elim "" fun f => "\x7b" ++ f.text ++ "\x7d"
  let scope := if d.isDynamic then "[" ++ d.span?.getD "" ++ field ++ "]" else ""
  let subject := d.target?.getD "" ++ scope
  let level := d.level?.elim "off" Level.name
  if d.target?.isSome || d.isDynamic then subject ++ "=" ++ level else level

end Directive

end ScriptedModel.Logging
