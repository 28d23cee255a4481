/-
Block scalars: lines that are indented alike. In a literal one line ends are kept; in a folded one
the end of a line stands for a space if neither that line nor the next begins with a blank, and
further line ends for themselves. What becomes of the line ends after the last line is said first.
-/
import ScriptedModel.Text.Numeral
import ScriptedModel.Yaml.Glyph

namespace ScriptedModel.Yaml.Block

/-! ## Headers -/

/-- What becomes of the line ends after the last line: all are dropped, one is kept, or all are
kept. -/
inductive Chomping
  | strip
  | clip
  | keep
  deriving DecidableEq, Repr

/-- The chomping that a character asks for. -/
def Chomping.ofChar? : Char → Option Chomping
  | '-' => some .strip
  | '+' => some .keep
  | _ => none

/-- What is said before the lines. -/
structure Header where
  chomping : Chomping
  increment? : Option Nat
  deriving DecidableEq, Repr

namespace Header

/-- The header that characters spell: the chomping and the number of columns of the indentation,
each of which may be left out, in any order. -/
def ofChars? : List Char → Option Header
  | [] => some ⟨.clip, none⟩
  | [c] =>
    match Chomping.ofChar? c with
    | some h => some ⟨h, none⟩
    | none => if '1' ≤ c ∧ c ≤ '9' then some ⟨.clip, some (Numeral.digitValue c)⟩ else none
  | [c, d] =>
    match Chomping.ofChar? c, Chomping.ofChar? d with
    | some h, none => if '1' ≤ d ∧ d ≤ '9' then some ⟨h, some (Numeral.digitValue d)⟩ else none
    | none, some h => if '1' ≤ c ∧ c ≤ '9' then some ⟨h, some (Numeral.digitValue c)⟩ else none
    | _, _ => none
  | _ => none

/-- The header, which blanks and a comment may follow on its line, and what stands on the next. -/
def read? (gs : List Glyph) : Option (Header × List Glyph) := do
  let isOwn (c : Char) : Bool := ¬ isSeparator c && c ≠ '#'
  let header ← ofChars? (Glyph.taken isOwn gs)
  return (header, ← Glyph.lineAfter? (Glyph.after isOwn gs))

end Header

/-! ## Indentation -/

/-- The largest column that the first line which is not empty, or an empty line before it, is
indented to. There may be no tab. -/
def indentation? (most : Nat) : List Glyph → Option Nat
  | [] => some most
  | g :: gs =>
    if g.char = ' ' then indentation? (max most (g.column + 1)) gs
    else if g.char = '\t' then none
    else if isBreak g.char then indentation? most gs
    else some (max most g.column)

/-- The column of the lines of a scalar inside a collection at a column. -/
def column? (outer? : Option Nat) (increment? : Option Nat) (gs : List Glyph) : Option Nat :=
  match increment? with
  | some n => some (outer?.getD 0 + n)
  | none => (indentation? 0 gs).map (max (max (outer?.elim 0 (· + 1)) 1))

/-! ## Lines -/

/-- How far a scalar is read: the text with its last character first, the end of the last line and
the line ends after it, the last one first, and whether that line begins with a blank. -/
structure Lines where
  text : List Char
  lineEnd? : Option Char
  more : List Char
  blankFirst : Bool
  deriving DecidableEq, Repr

namespace Lines

/-- No lines. -/
def none : Lines := ⟨[], .none, [], false⟩

/-- The lines with the start of one more. -/
def start (folded : Bool) (c : Char) (l : Lines) : Lines :=
  let joins : Bool := folded && l.lineEnd? = some '\n' && ¬ l.blankFirst && ¬ isBlank c
  let between := if joins then (if l.more = [] then [' '] else l.more) else l.more ++ l.lineEnd?.toList
  ⟨c :: (between ++ l.text), .none, [], isBlank c⟩

/-- The text when no line follows. -/
def result (chomping : Chomping) (l : Lines) : List Char :=
  match chomping with
  | .strip => l.text.reverse
  | .clip => l.text.reverse ++ l.lineEnd?.toList
  | .keep => l.text.reverse ++ l.lineEnd?.toList ++ l.more.reverse

end Lines

/-- Reads the lines at a column, inside a line or before one, up to the first that is indented
less. A tab is no indentation. -/
def lines? (folded : Bool) (column : Nat) (inLine : Bool) (l : Lines) :
    List Glyph → Option (Lines × List Glyph)
  | [] => some (l, [])
  | g :: gs =>
    if inLine then
      if isBreak g.char then lines? folded column false { l with lineEnd? := some g.char } gs
      else if g.char = endMark then some (l, g :: gs)
      else lines? folded column true { l with text := g.char :: l.text } gs
    else if g.column < column && g.char = ' ' then lines? folded column false l gs
    else if g.column < column && g.char = '\t' then none
    else if isBreak g.char then lines? folded column false { l with more := g.char :: l.more } gs
    else if g.column = column && g.char ≠ endMark then
      lines? folded column true (l.start folded g.char) gs
    else some (l, g :: gs)

/-- Reads a scalar after the character that begins it, inside a collection at a column. -/
def read? (folded : Bool) (outer? : Option Nat) (gs : List Glyph) : Option (List Char × List Glyph) := do
  let (header, gs) ← Header.read? gs
  let column ← column? outer? header.increment? gs
  let (l, rest) ← lines? folded column false .none gs
  return (l.result header.chomping, rest)

end ScriptedModel.Yaml.Block
