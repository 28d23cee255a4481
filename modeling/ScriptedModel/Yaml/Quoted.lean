/-
Quoted scalars. Between single quotes a quote is written twice; between double quotes a backslash
begins an escape, and one that ends a line joins it to the next. Lines are joined as in a plain
scalar, however they are indented, but none may look like the mark of a document.
-/
import ScriptedModel.Text.Numeral
import ScriptedModel.Yaml.Gap

namespace ScriptedModel.Yaml.Quoted

/-! ## Between single quotes -/

/-- The text up to the closing quote, after a gap and what was read before, and what follows it. -/
def singleFrom? (gap : Gap) (before : List Char) : List Glyph → Option (List Char × List Glyph)
  | [] => none
  | g :: gs =>
    if g.char = endMark || Glyph.isDocumentMark (g :: gs) then none
    else if isBlank g.char then singleFrom? (gap.blank g.char) before gs
    else if isBreak g.char then singleFrom? (gap.lineEnd g.char) before gs
    else if g.char = '\'' then
      match gs with
      | [] => some ((gap.onto before).reverse, [])
      | h :: hs =>
        if h.char = '\'' then singleFrom? .none ('\'' :: gap.onto before) hs
        else some ((gap.onto before).reverse, h :: hs)
    else singleFrom? .none (g.char :: gap.onto before) gs

/-- The text after an opening single quote. -/
def single? (gs : List Glyph) : Option (List Char × List Glyph) := singleFrom? .none [] gs

/-! ## Between double quotes -/

/-- The characters that a letter after a backslash stands for. -/
def escapes : List (Char × Char) :=
  [('0', '\x00'), ('a', '\x07'), ('b', '\x08'), ('t', '\t'), ('\t', '\t'), ('n', '\n'),
    ('v', '\x0b'), ('f', '\x0c'), ('r', '\r'), ('e', '\x1b'), (' ', ' '), ('"', '"'), ('/', '/'),
    ('\\', '\\'), ('N', '\u0085'), ('_', '\u00a0'), ('L', '\u2028'), ('P', '\u2029')]

/-- The letters after a backslash that hexadecimal digits follow, and how many. -/
def numbers : List (Char × Nat) := [('x', 2), ('u', 4), ('U', 8)]

/-- What is being read: characters, the letter after a backslash, or the digits of a character's
number, some of which are left. -/
inductive Mode
  | text
  | letter
  | digits (left number : Nat)
  deriving DecidableEq, Repr

/-- What the letter after a backslash means: a character, or that digits follow. -/
def Mode.ofLetter? (c : Char) : Option (Char ⊕ Mode) :=
  match escapes.find? (fun e => e.1 = c), numbers.find? (fun n => n.1 = c) with
  | some e, _ => some (.inl e.2)
  | none, some n => some (.inr (.digits n.2 0))
  | none, none => none

/-- What one more digit means: the character of the number if it was the last one. -/
def Mode.ofDigit? (left number : Nat) (c : Char) : Option (Char ⊕ Mode) :=
  if Numeral.isDigit 16 c then
    let n := number * 16 + Numeral.digitValue c
    if 1 < left then some (.inr (.digits (left - 1) n))
    else if n.isValidChar then some (.inl (Char.ofNat n))
    else none
  else none

/-- The text up to the closing quote, after a gap and what was read before, and what follows it. -/
def doubleFrom? (mode : Mode) (gap : Gap) (before : List Char) :
    List Glyph → Option (List Char × List Glyph)
  | [] => none
  | g :: gs =>
    match mode with
    | .text =>
      if g.char = endMark || Glyph.isDocumentMark (g :: gs) then none
      else if isBlank g.char then doubleFrom? .text (gap.blank g.char) before gs
      else if isBreak g.char then doubleFrom? .text (gap.lineEnd g.char) before gs
      else if g.char = '"' then some ((gap.onto before).reverse, gs)
      else if g.char = '\\' then doubleFrom? .letter .none (gap.onto before) gs
      else doubleFrom? .text .none (g.char :: gap.onto before) gs
    | .letter =>
      if isBreak g.char then doubleFrom? .text .joint before gs
      else match Mode.ofLetter? g.char with
        | some (.inl c) => doubleFrom? .text .none (c :: before) gs
        | some (.inr m) => doubleFrom? m .none before gs
        | none => none
    | .digits left n =>
      match Mode.ofDigit? left n g.char with
      | some (.inl c) => doubleFrom? .text .none (c :: before) gs
      | some (.inr m) => doubleFrom? m .none before gs
      | none => none

/-- The text after an opening double quote. -/
def double? (gs : List Glyph) : Option (List Char × List Glyph) := doubleFrom? .text .none [] gs

end ScriptedModel.Yaml.Quoted
