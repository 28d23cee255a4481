/-
The characters of a YAML text and the places where they stand. Line ends are written alike but for
the two separators of lines and paragraphs, and an end mark follows the last character, so that
something always stands next.
-/

namespace ScriptedModel.Yaml

/-! ## Characters -/

/-- Whether a character ends a line. -/
def isBreak (c : Char) : Bool := c = '\n' || c = '\u2028' || c = '\u2029'

/-- Whether a character is a space or a tab. -/
def isBlank (c : Char) : Bool := c = ' ' || c = '\t'

/-- The mark after the last character of a text, which no text holds. -/
def endMark : Char := '\x00'

/-- Whether a character stands between words: a blank, a line end or the end mark. -/
def isSeparator (c : Char) : Bool := isBlank c || isBreak c || c = endMark

/-- Whether a character may stand in a name. -/
def isWord (c : Char) : Bool := c.isAlphanum || c = '-' || c = '_'

/-- Whether a character belongs to the collections in brackets. -/
def isFlow (c : Char) : Bool := [',', '[', ']', '\x7b', '\x7d'].contains c

/-- Whether a character may stand in a text. -/
def isAllowed (c : Char) : Bool :=
  c = '\t' || c = '\n' || (' ' ≤ c && c ≤ '~') || c = '\u0085' ||
    ('\u00a0' ≤ c && c ≠ '\ufffe' && c ≠ '\uffff')

/-- A text with line ends written alike. -/
def unified : List Char → List Char
  | '\r' :: '\n' :: cs => '\n' :: unified cs
  | '\r' :: cs => '\n' :: unified cs
  | '\u0085' :: cs => '\n' :: unified cs
  | c :: cs => c :: unified cs
  | [] => []

/-! ## Places -/

/-- A character, its line and its column. -/
structure Glyph where
  char : Char
  line : Nat
  column : Nat
  deriving DecidableEq, Repr

namespace Glyph

/-- The characters of a text that begins at a place, and the end mark. -/
def locate (line column : Nat) : List Char → List Glyph
  | [] => [⟨endMark, line, column⟩]
  | c :: cs =>
    ⟨c, line, column⟩ :: if isBreak c then locate (line + 1) 0 cs else locate line (column + 1) cs

/-- The characters of a text, if all of them may stand in one. -/
def ofText? (text : String) : Option (List Glyph) :=
  let cs := unified text.toList
  if cs.all isAllowed then some (locate 0 0 cs) else none

/-- The next character. -/
def next (gs : List Glyph) : Char := gs.head?.elim endMark char

/-- The next characters, as long as they are of a kind. -/
def taken (p : Char → Bool) (gs : List Glyph) : List Char := (gs.takeWhile fun g => p g.char).map char

/-- What follows the characters of a kind. -/
def after (p : Char → Bool) (gs : List Glyph) : List Glyph := gs.dropWhile fun g => p g.char

/-- Whether three characters like this one stand at the start of a line, and nothing else before
the next blank. -/
def isTriple (c : Char) (gs : List Glyph) : Bool :=
  gs.head?.any (fun g => g.column = 0) && (gs.take 3).map char = [c, c, c] &&
    isSeparator (next (gs.drop 3))

/-- Whether a mark that begins or ends a document comes next. -/
def isDocumentMark (gs : List Glyph) : Bool := isTriple '-' gs || isTriple '.' gs

/-- The start of the next line, if only blanks and a comment come before it. -/
def lineAfter? (gs : List Glyph) : Option (List Glyph) :=
  let rest := after isBlank gs
  let rest := if next rest = '#' then after (fun c => ¬ isBreak c && c ≠ endMark) rest
    else rest
  if isBreak (next rest) then some rest.tail
  else if next rest = endMark then some rest
  else none

end Glyph

end ScriptedModel.Yaml
