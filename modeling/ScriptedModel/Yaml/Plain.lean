/-
Plain scalars, which no quotes surround. One goes on over line ends as long as its lines are
indented, and ends before a comment, before a colon that is followed by a blank, and in brackets
before the characters that belong to the brackets.
-/
import ScriptedModel.Yaml.Gap

namespace ScriptedModel.Yaml

/-- The text of a plain scalar, whether a line end follows it, and what comes next. -/
structure Plain where
  text : List Char
  broken : Bool
  rest : List Glyph
  deriving Repr

namespace Plain

/-- Whether a word may not go on, between brackets or not, or may not begin after a gap. Outside
brackets a line has to be indented to the least column. -/
def endsAt (flow : Bool) (least : Nat) (gap : Gap) (g : Glyph) (gs : List Glyph) : Bool :=
  g.char = endMark || (g.char = ':' && isSeparator (Glyph.next gs)) || (flow && isFlow g.char) ||
    (gap ≠ .none && ((!flow && g.column < least) || g.char = '#' || Glyph.isDocumentMark (g :: gs)))

/-- Whether a colon between brackets stands before what it must not stand before. -/
def isStray (g : Glyph) (gs : List Glyph) : Bool :=
  g.char = ':' && (isFlow (Glyph.next gs) || Glyph.next gs = '?')

/-- Reads on after a gap and what was read before, which is held with its last character first. -/
def readFrom? (flow : Bool) (least : Nat) (gap : Gap) (before : List Char) :
    List Glyph → Option Plain
  | [] => some ⟨before.reverse, gap.spansLines, []⟩
  | g :: gs =>
    if isBlank g.char then
      if gap.spansLines && g.char = '\t' && g.column < least then none
      else readFrom? flow least (gap.blank g.char) before gs
    else if isBreak g.char then readFrom? flow least (gap.lineEnd g.char) before gs
    else if endsAt flow least gap g gs then some ⟨before.reverse, gap.spansLines, g :: gs⟩
    else if flow && isStray g gs then none
    else readFrom? flow least .none (g.char :: gap.onto before) gs

/-- Reads a plain scalar that begins here. -/
def read? (flow : Bool) (least : Nat) (gs : List Glyph) : Option Plain :=
  readFrom? flow least .none [] gs

end Plain

end ScriptedModel.Yaml
