/-
Names of nodes, tags and directives. A tag is a suffix under a handle, which a directive may have
declared to stand for the start of a longer one; a tag between angle brackets stands for itself.
-/
import ScriptedModel.Text.Numeral
import ScriptedModel.Yaml.Glyph

namespace ScriptedModel.Yaml

/-! ## Names -/

/-- Whether a character may follow a name. -/
def endsName (c : Char) : Bool :=
  isSeparator c || ['?', ':', ',', ']', '\x7d', '%', '@', '\x60'].contains c

/-- The name that comes next, and what follows it. -/
def name? (gs : List Glyph) : Option (String × List Glyph) :=
  let name := Glyph.taken isWord gs
  let rest := Glyph.after isWord gs
  if name ≠ [] ∧ endsName (Glyph.next rest) then some (String.ofList name, rest) else none

/-! ## Tag characters -/

/-- Whether a character may stand in a tag. Inside angle brackets and in directives a comma and
square brackets may, too. -/
def isTagChar (free : Bool) (c : Char) : Bool :=
  isWord c ||
    [';', '/', '?', ':', '@', '&', '=', '+', '$', '.', '%', '!', '~', '*', '\'', '(', ')'].contains c ||
    (free && [',', '[', ']'].contains c)

/-- The number of octets that follow the first octet of a character. -/
def octetsAfter? (octet : Nat) : Option Nat :=
  if octet < 0x80 then some 0
  else if octet < 0xC0 then none
  else if octet < 0xE0 then some 1
  else if octet < 0xF0 then some 2
  else if octet < 0xF8 then some 3
  else none

/-- The octet that two hexadecimal digits spell. -/
def octet? (c d : Char) : Option Nat := Numeral.value? 16 [c, d]

/-- The characters of a tag up to the first that may not stand in one, and what follows. A percent
sign and two digits stand for an octet; the octets of one character stand together, of which
`more` are still to come. -/
def tagCharsFrom? (free : Bool) (more : Nat) (before : List Char) :
    List Glyph → Option (List Char × List Glyph)
  | g :: h :: i :: gs =>
    if g.char = '%' then do
      let octet ← octet? h.char i.char
      let left ← if more = 0 then octetsAfter? octet
        else if 0x80 ≤ octet ∧ octet < 0xC0 then some (more - 1)
        else none
      tagCharsFrom? free left (Char.ofNat octet :: before) gs
    else if more ≠ 0 then none
    else if isTagChar free g.char then tagCharsFrom? free 0 (g.char :: before) (h :: i :: gs)
    else some (before.reverse, g :: h :: i :: gs)
  | g :: gs =>
    if more ≠ 0 ∨ g.char = '%' then none
    else if isTagChar free g.char then tagCharsFrom? free 0 (g.char :: before) gs
    else some (before.reverse, g :: gs)
  | [] => if more = 0 then some (before.reverse, []) else none

/-- The characters of a tag, one at least. -/
def tagChars? (free : Bool) (gs : List Glyph) : Option (List Char × List Glyph) :=
  (tagCharsFrom? free 0 [] gs).filter fun r => r.1 ≠ []

/-- A text up to the first zero, where a tag ends. -/
def untilZero (cs : List Char) : String := String.ofList (cs.takeWhile (· ≠ '\x00'))

/-! ## Tags -/

/-- A tag as it is written. An empty handle stands for nothing. -/
structure TagName where
  handle : String
  suffix : String
  deriving DecidableEq, Repr

/-- The tag after an exclamation mark, and what follows it. -/
def TagName.read? (gs : List Glyph) : Option (TagName × List Glyph) :=
  if Glyph.next gs = '<' then do
    let (cs, rest) ← tagChars? true gs.tail
    if Glyph.next rest = '>' then some (⟨"", untilZero cs⟩, rest.tail) else none
  else
    let name := Glyph.taken isWord gs
    let rest := Glyph.after isWord gs
    if Glyph.next rest = '!' then do
      let (cs, rest) ← tagChars? false rest.tail
      some (⟨"!" ++ String.ofList name ++ "!", untilZero cs⟩, rest)
    else do
      let (cs, rest) ← tagCharsFrom? false 0 name.reverse rest
      let suffix := untilZero cs
      some (if suffix = "" then ⟨"", "!"⟩ else ⟨"!", suffix⟩, rest)

/-! ## Directives -/

/-- What is said before a document: the version, or what a handle stands for. -/
inductive Directive
  | version (major minor : Nat)
  | handle (handle meaning : String)
  deriving DecidableEq, Repr

namespace Directive

/-- A number of up to nine digits, and what follows it. -/
def number? (gs : List Glyph) : Option (Nat × List Glyph) :=
  let digits := Glyph.taken Char.isDigit gs
  if digits.length ≤ 9 then (Numeral.value? 10 digits).map fun n => (n, Glyph.after Char.isDigit gs)
  else none

/-- A version, and what follows it. -/
def version? (gs : List Glyph) : Option (Directive × List Glyph) := do
  let (major, gs) ← number? gs
  if Glyph.next gs = '.' then
    let (minor, gs) ← number? gs.tail
    some (.version major minor, gs)
  else none

/-- A handle and what it stands for, and what follows them. -/
def handle? (gs : List Glyph) : Option (Directive × List Glyph) :=
  if Glyph.next gs = '!' then do
    let name := Glyph.taken isWord gs.tail
    let gs := Glyph.after isWord gs.tail
    let (own, gs) ←
      if Glyph.next gs = '!' then some ('!' :: (name ++ ['!']), gs.tail)
      else if name = [] then some (['!'], gs)
      else none
    if isBlank (Glyph.next gs) then
      let (meaning, gs) ← tagChars? true (Glyph.after isBlank gs)
      if isSeparator (Glyph.next gs) then
        some (.handle (String.ofList own) (untilZero meaning), gs)
      else none
    else none
  else none

/-- The directive after a percent sign, and the lines after it. -/
def read? (gs : List Glyph) : Option (Directive × List Glyph) := do
  let rest := Glyph.after isWord gs
  if isSeparator (Glyph.next rest) then
    let value := Glyph.after isBlank rest
    let (directive, rest) ←
      match String.ofList (Glyph.taken isWord gs) with
      | "YAML" => version? value
      | "TAG" => handle? value
      | _ => none
    return (directive, ← Glyph.lineAfter? rest)
  else none

end Directive

end ScriptedModel.Yaml
