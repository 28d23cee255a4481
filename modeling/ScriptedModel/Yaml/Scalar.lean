/-
What the text of a plain scalar reads as, and how a text is written so that it reads as itself: as
it is where nothing forbids that, else between single quotes, between double quotes if those cannot
hold it, and as a literal block if it has several lines.
-/
import ScriptedModel.Double.Fraction
import ScriptedModel.Text.Numeral
import ScriptedModel.Yaml.Glyph

namespace ScriptedModel.Yaml.Scalar

/-! ## Reading -/

/-- Whether a text reads as null. -/
def isNull (s : String) : Bool := ["null", "Null", "NULL", "~"].contains s

/-- The truth value that a text reads as. -/
def truth? (s : String) : Option Bool :=
  if ["true", "True", "TRUE"].contains s then some true
  else if ["false", "False", "FALSE"].contains s then some false
  else none

/-- A text without one sign of a kind in front. -/
def unsigned (sign : Char) : List Char → List Char
  | c :: cs => if c = sign then cs else c :: cs
  | [] => []

/-- Whether a text is several digits of which the first is a zero, after a sign or none. -/
def isPadded (cs : List Char) : Bool :=
  match cs with
  | '-' :: ds | '+' :: ds | ds =>
    match ds with
    | '0' :: _ :: _ => ds.all Char.isDigit
    | _ => false

/-- The number of a base that the digits after a letter are written in. -/
def base? : Char → Option Nat
  | 'x' => some 16
  | 'o' => some 8
  | 'b' => some 2
  | _ => none

/-- The number that digits spell, in decimal or in the base that a zero and a letter in front
show. -/
def digits? : List Char → Option Nat
  | '0' :: c :: ds =>
    match base? c with
    | some base => Numeral.value? base ds
    | none => Numeral.value? 10 ('0' :: c :: ds)
  | ds => Numeral.value? 10 ds

/-- The natural number that a text reads as; several digits do not begin with a zero. -/
def natural? (s : String) : Option Nat :=
  if isPadded s.toList then none else digits? (unsigned '+' s.toList)

/-- The bound of the numbers of 64 bits. -/
def wordBound : Nat := UInt64.size

/-- Whether a text reads as an integer of at most 128 bits that is written in another base. -/
def isBasedInteger (cs : List Char) : Bool :=
  match cs with
  | '-' :: '0' :: c :: ds => (base? c).any fun b => (Numeral.value? b ds).any (· ≤ wordBound * wordBound / 2)
  | '+' :: '0' :: c :: ds | '0' :: c :: ds => (base? c).any fun b =>
    (Numeral.value? b ds).any (· < wordBound * wordBound)
  | _ => false

/-- Whether a text reads as a number that need not be an integer. -/
def isFloat (s : String) : Bool :=
  [".inf", ".Inf", ".INF", "+.inf", "+.Inf", "+.INF", "-.inf", "-.Inf", "-.INF", ".nan", ".NaN",
    ".NAN"].contains s ||
  match s.toList with
  | '-' :: cs | '+' :: cs | cs => (Fraction.ofChars? cs).any fun f => f.nearest?.isSome

/-- Whether a text would read as something else than a text, or is written like a number. -/
def isAmbiguous (s : String) : Bool :=
  s = "" || isNull s || (truth? s).isSome || isBasedInteger s.toList || isPadded s.toList || isFloat s

/-! ## Writing -/

/-- Whether a character is shown as it is. -/
def isPrintable (c : Char) : Bool :=
  c = '\n' || (' ' ≤ c && c ≤ '~') || ('\u00a0' ≤ c && c ≠ '\ufeff' && c ≠ '\ufffe' && c ≠ '\uffff')

/-- Whether a blank or the end comes next. -/
def blankNext (cs : List Char) : Bool := isSeparator (cs.head?.getD endMark)

/-- Whether a text has a colon before a blank, or a number sign after one. -/
def hasIndicator : (afterBlank : Bool) → List Char → Bool
  | _, [] => false
  | afterBlank, c :: cs =>
    (c = ':' && blankNext cs) || (c = '#' && afterBlank) || hasIndicator (blankNext [c]) cs

/-- Whether a text begins like something else than a plain scalar. -/
def beginsIndicator (cs : List Char) : Bool :=
  ['-', '-', '-'].isPrefixOf cs || ['.', '.', '.'].isPrefixOf cs ||
  match cs with
  | [] => true
  | c :: r =>
    ['#', ',', '[', ']', '\x7b', '\x7d', '&', '*', '!', '|', '>', '\'', '"', '%', '@',
      '\x60'].contains c ||
    (['-', '?', ':'].contains c && blankNext r)

/-- Whether a character of one class stands before one of another. -/
def hasPair (p q : Char → Bool) (cs : List Char) : Bool := (cs.zip cs.tail).any fun x => p x.1 && q x.2

/-- Whether a character is a space. -/
def isSpace (c : Char) : Bool := c = ' '

/-- Whether a text can be written only between double quotes. -/
def needsDouble (cs : List Char) : Bool := ¬ cs.all isPrintable || hasPair isSpace isBreak cs

/-- Whether a text may be written as it is. -/
def isPlain (cs : List Char) : Bool :=
  ¬ (needsDouble cs || cs.head?.any isSpace || cs.getLast?.any isSpace || cs.any isBreak ||
    beginsIndicator cs || hasIndicator true cs)

/-- Characters at the start of a line or inside one, the lines indented by some spaces. -/
def indented (indentation : Nat) : (start : Bool) → List Char → List Char
  | _, [] => []
  | start, c :: cs =>
    if isBreak c then c :: indented indentation true cs
    else (if start then List.replicate indentation ' ' else []) ++ c :: indented indentation false cs

/-- A character as it stands between single quotes. -/
def singleQuoted (c : Char) : List Char := if c = '\'' then ['\'', '\''] else [c]

/-- A text between single quotes, the further lines indented by some spaces. -/
def single (indentation : Nat) (cs : List Char) : List Char :=
  let own := cs.flatMap singleQuoted ++ ['\'']
  '\'' :: indented indentation false own

/-- The letters that stand for characters after a backslash. -/
def letters : List (Char × Char) :=
  [('\x00', '0'), ('\x07', 'a'), ('\x08', 'b'), ('\t', 't'), ('\n', 'n'), ('\x0b', 'v'),
    ('\x0c', 'f'), ('\r', 'r'), ('\x1b', 'e'), ('"', '"'), ('\\', '\\'), ('\u0085', 'N'),
    ('\u2028', 'L'), ('\u2029', 'P')]

/-- A number in upper-case hexadecimal of a width. -/
def hex (width n : Nat) : List Char := (Numeral.padded 16 width n).map Char.toUpper

/-- A character as it stands between double quotes. -/
def doubleQuoted (c : Char) : List Char :=
  match letters.find? (fun l => l.1 = c) with
  | some l => ['\\', l.2]
  | none =>
    if isPrintable c then [c]
    else if c.toNat ≤ 0xFF then '\\' :: 'x' :: hex 2 c.toNat
    else '\\' :: 'u' :: hex 4 c.toNat

/-- Whether a literal block keeps the line ends after its last line. -/
def keepsEnd (cs : List Char) : Bool := (cs.reverse.take 2).all isBreak

/-- The indentation of a literal block below what it belongs to. -/
def blockIndentation : Nat := 2

/-- The characters after the bar of a literal block. -/
def blockHeader (cs : List Char) : List Char :=
  (if cs.head?.any (fun c => c = ' ' || isBreak c) then Numeral.digits 10 blockIndentation else []) ++
    (if cs.getLast?.all (¬ isBreak ·) then ['-'] else if keepsEnd cs then ['+'] else [])

/-- A literal block whose lines are indented by some spaces. -/
def block (indentation : Nat) (cs : List Char) : List Char :=
  '|' :: (blockHeader cs ++ '\n' :: indented indentation true cs)

/-- A text as a scalar; its lines are indented by some spaces. -/
def write (indentation : Nat) (s : String) : List Char :=
  let cs := s.toList
  let double := '"' :: (cs.flatMap doubleQuoted ++ ['"'])
  if cs.contains '\n' then
    if needsDouble cs || cs.getLast?.any isSpace then double else block indentation cs
  else if ¬ isAmbiguous s && isPlain cs then cs
  else if needsDouble cs || hasPair isBreak isSpace cs then double
  else single indentation cs

end ScriptedModel.Yaml.Scalar
