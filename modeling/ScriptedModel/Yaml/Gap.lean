/-
What stands between the words of a scalar that is written on several lines. Blanks on one line
stand for themselves; a line end stands for a space, further ones for themselves, and the blanks
around line ends are dropped. A separator of lines or paragraphs always stands for itself.
-/
import ScriptedModel.Yaml.Glyph

namespace ScriptedModel.Yaml

/-- Blanks, or line ends, of which the first may be escaped. The last character is first. -/
inductive Gap
  | blanks (chars : List Char)
  | lines (more : List Char) (first? : Option Char)
  deriving DecidableEq, Repr

namespace Gap

/-- Nothing between two characters. -/
def none : Gap := .blanks []

/-- An escaped line end. -/
def joint : Gap := .lines [] .none

/-- A gap and a blank after it. -/
def blank (c : Char) : Gap → Gap
  | .blanks cs => .blanks (c :: cs)
  | .lines more first? => .lines more first?

/-- A gap and a line end after it. -/
def lineEnd (c : Char) : Gap → Gap
  | .blanks _ => .lines [] (some c)
  | .lines more first? => .lines (c :: more) first?

/-- Whether a gap goes over a line end. -/
def spansLines : Gap → Bool
  | .blanks _ => false
  | .lines _ _ => true

/-- What a gap stands for, with the last character first. -/
def reversed : Gap → List Char
  | .blanks cs => cs
  | .lines [] (some '\n') => [' ']
  | .lines more (some '\n') => more
  | .lines more first? => more ++ first?.toList

/-- What a gap stands for, put behind a text that is held with its last character first. -/
def onto (g : Gap) (before : List Char) : List Char := g.reversed ++ before

end Gap

end ScriptedModel.Yaml
