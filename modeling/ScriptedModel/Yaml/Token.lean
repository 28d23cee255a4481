/-
The tokens of a YAML text. Outside brackets columns show where collections begin and end, so tokens
for that are put between those that are written. A scalar or a bracket that a colon follows on its
line turns out to be a key only then; the place before it is kept until it can be a key no more.
-/
import ScriptedModel.Yaml.Block
import ScriptedModel.Yaml.Plain
import ScriptedModel.Yaml.Property
import ScriptedModel.Yaml.Quoted

namespace ScriptedModel.Yaml

/-- How a scalar is written. -/
inductive Style
  | plain
  | quoted
  | literal
  | folded
  deriving DecidableEq, Repr

/-- What a text is made of. Lists and records that columns show are opened and closed by tokens
that nothing is written for, and so may keys be. -/
inductive Token
  | openList
  | openRecord
  | close
  | entry
  | key
  | value
  | openBracket
  | closeBracket
  | openBrace
  | closeBrace
  | comma
  | scalar (style : Style) (text : String)
  | anchor (name : String)
  | alias (name : String)
  | tag (name : TagName)
  | directive (directive : Directive)
  | start
  | stop
  deriving DecidableEq, Repr

namespace Token

/-! ## The place of reading -/

/-- What may turn out to be a key: where it begins, how many tokens come before it, and whether it
has to be a key. -/
structure Candidate where
  line : Nat
  column : Nat
  number : Nat
  required : Bool
  deriving DecidableEq, Repr

/-- A place in a text: what follows, the candidate outside brackets and in each bracket that is
open, the columns of the collections, the inner ones first, whether a key may begin here, and the
tokens so far. -/
structure Cursor where
  rest : List Glyph
  candidates : List (Option Candidate)
  columns : List Nat
  keyAllowed : Bool
  tokens : Array Token
  deriving Repr

namespace Cursor

/-- The beginning of a text. -/
def initial (gs : List Glyph) : Cursor := ⟨gs, [none], [], true, #[]⟩

/-- Whether a bracket is open. -/
def inBrackets (k : Cursor) : Bool := ¬ k.candidates.tail.isEmpty

/-- The cursor with one more token and what follows it, where a key may begin or not. -/
def push (k : Cursor) (t : Token) (keyAllowed : Bool) (rest : List Glyph) : Cursor :=
  { k with tokens := k.tokens.push t, keyAllowed, rest }

/-! ## Blanks -/

/-- What follows blanks, comments and line ends, and whether a key may begin there. Outside
brackets a tab is no blank where a key may begin. -/
def skip (flow : Bool) : (comment keyAllowed : Bool) → List Glyph → Bool × List Glyph
  | _, keyAllowed, [] => (keyAllowed, [])
  | comment, keyAllowed, g :: gs =>
    if isBreak g.char then skip flow false (keyAllowed || !flow) gs
    else if comment && g.char ≠ endMark then skip flow true keyAllowed gs
    else if g.char = ' ' || (g.char = '\t' && (flow || !keyAllowed)) ||
        (g.char = '\ufeff' && g.column = 0) then
      skip flow false keyAllowed gs
    else if g.char = '#' then skip flow true keyAllowed gs
    else (keyAllowed, g :: gs)

/-- The place of the next token. -/
def skipped (k : Cursor) : Cursor :=
  let (keyAllowed, rest) := skip k.inBrackets false k.keyAllowed k.rest
  { k with keyAllowed, rest }

/-! ## Keys -/

/-- How far a colon may stand from the start of its key. -/
def keyLength : Nat := 1024

/-- Whether a candidate can still be a key when reading has come to a place. -/
def isCurrent (g : Glyph) (c : Candidate) : Bool := c.line = g.line && g.column ≤ c.column + keyLength

/-- The cursor without the candidates that can be keys no more. -/
def refreshed? (g : Glyph) (k : Cursor) : Option Cursor := do
  let candidates ← k.candidates.mapM fun
    | some c => if isCurrent g c then some (some c) else if c.required then none else some none
    | none => some none
  return { k with candidates }

/-- The cursor without the innermost candidate. -/
def withoutKey? (k : Cursor) : Option Cursor :=
  match k.candidates with
  | some c :: cs => if c.required then none else some { k with candidates := none :: cs }
  | _ => some k

/-- The cursor with a candidate that begins at a place, if a key may. Outside brackets a candidate
in the column of the collection has to be a key. -/
def withKey? (g : Glyph) (k : Cursor) : Option Cursor :=
  if k.keyAllowed then do
    let k ← k.withoutKey?
    let required : Bool := ¬ k.inBrackets ∧ k.columns.head? = some g.column
    return { k with
      candidates := some ⟨g.line, g.column, k.tokens.size, required⟩ :: k.candidates.tail }
  else some k

/-! ## Columns -/

/-- The cursor with the collections closed that stand to the right of a column, or all of them. -/
def closedTo (column? : Option Nat) (k : Cursor) : Cursor :=
  if k.inBrackets then k
  else
    let isInner (c : Nat) : Bool := column?.all (· < c)
    let closes := (k.columns.takeWhile isInner).map fun _ => Token.close
    { k with columns := k.columns.dropWhile isInner, tokens := k.tokens ++ closes }

/-- The cursor with a collection opened at a column, if one begins there, before the tokens from a
number on. -/
def openedAt (column number : Nat) (t : Token) (k : Cursor) : Cursor :=
  if ¬ k.inBrackets ∧ k.columns.head?.all (· < column) then
    { k with columns := column :: k.columns, tokens := k.tokens.insertIdxIfInBounds number t }
  else k

/-- The cursor with the candidate made a key, and a record opened before it if one begins there. -/
def keyed (c : Candidate) (k : Cursor) : Cursor :=
  openedAt c.column c.number .openRecord
    { k with
      tokens := k.tokens.insertIdxIfInBounds c.number .key
      candidates := none :: k.candidates.tail }

end Cursor

/-! ## Reading -/

/-- Reads a mark of a document, or a directive. -/
def mark? (k : Cursor) (t : Token) (rest : List Glyph) : Option Cursor :=
  (k.closedTo none).withoutKey?.map (·.push t false rest)

/-- Reads an opening bracket. -/
def openFlow? (k : Cursor) (g : Glyph) (t : Token) (rest : List Glyph) : Option Cursor := do
  let k ← k.withKey? g
  return { k.push t true rest with candidates := none :: k.candidates }

/-- Reads a closing bracket. -/
def closeFlow? (k : Cursor) (t : Token) (rest : List Glyph) : Option Cursor := do
  let k ← k.withoutKey?
  return { k.push t false rest with
    candidates := if k.inBrackets then k.candidates.tail else k.candidates }

/-- Reads the hyphen of an entry or the question mark of a key, which outside brackets may open a
collection. -/
def indicator? (k : Cursor) (g : Glyph) (opening t : Token) (keyAllowed : Bool)
    (rest : List Glyph) : Option Cursor :=
  if k.inBrackets || k.keyAllowed then
    (k.openedAt g.column k.tokens.size opening).withoutKey?.map (·.push t keyAllowed rest)
  else none

/-- Reads the colon before a value. -/
def value? (k : Cursor) (g : Glyph) (rest : List Glyph) : Option Cursor :=
  match k.candidates.head? with
  | some (some c) => some ((k.keyed c).push .value false rest)
  | _ => indicator? k g .openRecord .value (¬ k.inBrackets) rest

/-- Reads the name of an anchor or an alias. -/
def named? (k : Cursor) (g : Glyph) (t : String → Token) (gs : List Glyph) : Option Cursor := do
  let k ← k.withKey? g
  let (name, rest) ← name? gs
  return k.push (t name) false rest

/-- Reads a tag. -/
def tag? (k : Cursor) (g : Glyph) (gs : List Glyph) : Option Cursor := do
  let k ← k.withKey? g
  let (name, rest) ← TagName.read? gs
  let next := Glyph.next rest
  if isSeparator next || (k.inBrackets && next = ',') then some (k.push (.tag name) false rest) else none

/-- Reads a literal or a folded scalar. -/
def block? (k : Cursor) (style : Style) (gs : List Glyph) : Option Cursor := do
  let k ← k.withoutKey?
  let (text, rest) ← Block.read? (style = .folded) k.columns.head? gs
  return k.push (.scalar style (String.ofList text)) true rest

/-- Reads a quoted scalar. -/
def quoted? (k : Cursor) (g : Glyph) (read? : List Glyph → Option (List Char × List Glyph))
    (gs : List Glyph) : Option Cursor := do
  let k ← k.withKey? g
  let (text, rest) ← read? gs
  return k.push (.scalar .quoted (String.ofList text)) false rest

/-- Reads a plain scalar, after which a key may begin if a line end came last. -/
def plain? (k : Cursor) (g : Glyph) (gs : List Glyph) : Option Cursor := do
  let k ← k.withKey? g
  let p ← Plain.read? k.inBrackets (k.columns.head?.elim 0 (· + 1)) (g :: gs)
  return k.push (.scalar .plain (String.ofList p.text)) p.broken p.rest

/-- The characters that begin no token, some of them in brackets alone. -/
def unusable : List Char := ['\t', '|', '>', '%', '@', '\x60']

/-- Reads the token that begins here. -/
def next? (k : Cursor) (g : Glyph) (gs : List Glyph) : Option Cursor :=
  let flow := k.inBrackets
  let apart : Bool := isSeparator (Glyph.next gs)
  if g.char = '%' ∧ g.column = 0 then do
    let (d, rest) ← Directive.read? gs
    mark? k (.directive d) rest
  else if Glyph.isTriple '-' (g :: gs) then mark? k .start (gs.drop 2)
  else if Glyph.isTriple '.' (g :: gs) then mark? k .stop (gs.drop 2)
  else if g.char = '[' then openFlow? k g .openBracket gs
  else if g.char = '\x7b' then openFlow? k g .openBrace gs
  else if g.char = ']' then closeFlow? k .closeBracket gs
  else if g.char = '\x7d' then closeFlow? k .closeBrace gs
  else if g.char = ',' then k.withoutKey?.map (·.push .comma true gs)
  else if g.char = '-' ∧ apart then indicator? k g .openList .entry true gs
  else if g.char = '?' ∧ (flow ∨ apart) then indicator? k g .openRecord .key (¬ flow) gs
  else if g.char = ':' ∧ (flow ∨ apart) then value? k g gs
  else if g.char = '*' then named? k g .alias gs
  else if g.char = '&' then named? k g .anchor gs
  else if g.char = '!' then tag? k g gs
  else if g.char = '|' ∧ ¬ flow then block? k .literal gs
  else if g.char = '>' ∧ ¬ flow then block? k .folded gs
  else if g.char = '\'' then quoted? k g Quoted.single? gs
  else if g.char = '"' then quoted? k g Quoted.double? gs
  else if unusable.contains g.char then none
  else plain? k g gs

/-- The tokens of the text that a cursor stands in, read to the end in so many steps at most. -/
def from? : (steps : Nat) → Cursor → Option (List Token)
  | 0, _ => none
  | steps + 1, k =>
    let s := k.skipped
    match s.rest with
    | [] => none
    | g :: gs =>
      match s.refreshed? g with
      | none => none
      | some s =>
        if g.char = endMark then (s.closedTo none).withoutKey?.map (·.tokens.toList)
        else (next? (s.closedTo (some g.column)) g gs).bind (from? steps)

/-- The tokens of a text. Each takes a character at least, and one more step finds the end mark. -/
def ofText? (text : String) : Option (List Token) := do
  let gs ← Glyph.ofText? text
  from? gs.length (.initial gs)

end Token

end ScriptedModel.Yaml
