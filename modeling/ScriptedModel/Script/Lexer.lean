/-
The lexer cuts a script into lexemes, consecutive non-empty pieces of its text. A lexeme is a
blank, which stands for no token, or the text of exactly one token; a token stands where its
lexeme begins.
-/
import ScriptedModel.Script.Token

namespace ScriptedModel.Script

/-- A piece of a script and the kind of token it stands for, none for a blank. -/
structure Lexeme where
  source : List Char
  kind? : Option Token.Kind
  deriving DecidableEq, Repr

namespace Lexer

/-! ## String literals -/

/-- The character that an escape letter stands for, after a backslash. -/
def escaped? : Char → Option Char
  | '"' => some '"'
  | 'n' => some '\n'
  | 't' => some '\t'
  | '\\' => some '\\'
  | _ => none

/-- Splits the text after an opening quote before the first quote that no escape covers. -/
def literalBody : List Char → List Char × List Char
  | [] => ([], [])
  | '"' :: r => ([], '"' :: r)
  | ['\\'] => (['\\'], [])
  | '\\' :: c :: r =>
    if (escaped? c).isSome then
      ('\\' :: c :: (literalBody r).1, (literalBody r).2)
    else
      ('\\' :: (literalBody (c :: r)).1, (literalBody (c :: r)).2)
  | c :: r => (c :: (literalBody r).1, (literalBody r).2)

/-- The text that the body of a literal spells; a backslash that starts no escape is itself. -/
def unescape : List Char → List Char
  | [] => []
  | ['\\'] => ['\\']
  | '\\' :: c :: r =>
    match escaped? c with
    | some d => d :: unescape r
    | none => '\\' :: unescape (c :: r)
  | c :: r => c :: unescape r

/-! ## Lexemes -/

/-- The characters that separate lexemes and stand for no token. -/
def isBlank (c : Char) : Bool := c = ' ' ∨ c = '\t' ∨ c = '\r'

/-- The largest number a token holds. -/
def numberCeiling : Nat := UInt64.size - 1

/-- The kind of token that a run of letters and digits stands for. -/
def wordKind (word : List Char) : Token.Kind :=
  let word := String.ofList (word.map Char.toUpper)
  match Keyword.ofWord? word with
  | some k => .keyword k
  | none => .invalid word

/-- The literal after an opening quote, which ends at its closing quote or with the script. -/
def literal (r : List Char) : Lexeme × List Char :=
  let body := (literalBody r).1
  let kind := Token.Kind.string (String.ofList (unescape body))
  match (literalBody r).2 with
  | [] => (⟨'"' :: body, some kind⟩, [])
  | q :: rest => (⟨'"' :: (body ++ [q]), some kind⟩, rest)

/-- The lexeme that begins with a character, and the text after it. -/
def next (c : Char) (r : List Char) : Lexeme × List Char :=
  if c = '\n' then (⟨[c], some .newline⟩, r)
  else if isBlank c then (⟨[c], none⟩, r)
  else if c = '"' then literal r
  else if c.isDigit then
    let ds := c :: r.takeWhile Char.isDigit
    (⟨ds, some (.number (Numeral.saturated 10 numberCeiling ds))⟩, r.dropWhile Char.isDigit)
  else if c.isAlpha then
    let word := c :: r.takeWhile Char.isAlphanum
    (⟨word, some (wordKind word)⟩, r.dropWhile Char.isAlphanum)
  else (⟨[c], some (.invalid (String.ofList [c]))⟩, r)

/-! ### The text after a lexeme is shorter -/

theorem length_literalBody_le (r : List Char) : (literalBody r).2.length ≤ r.length := by
  fun_induction literalBody r <;> simp_all <;> omega

theorem length_dropWhile_le (p : Char → Bool) (r : List Char) :
    (r.dropWhile p).length ≤ r.length :=
  (List.dropWhile_sublist p).length_le

theorem length_next_le (c : Char) (r : List Char) : (next c r).2.length ≤ r.length := by
  unfold next literal
  have h := length_literalBody_le r
  repeat' split
  all_goals simp_all [length_dropWhile_le]
  omega

/-- The lexemes of a script, in order. -/
def lexemes : List Char → List Lexeme
  | [] => []
  | c :: r => (next c r).1 :: lexemes (next c r).2
termination_by cs => cs.length
decreasing_by exact Nat.lt_succ_of_le (length_next_le c r)

/-! ## Tokens -/

/-- The tokens of consecutive lexemes, the first of which stands at a position. -/
def locate (p : Position) : List Lexeme → List Token
  | [] => [⟨.endOfInput, p⟩]
  | l :: ls =>
    let after := l.source.foldl Position.advance p
    match l.kind? with
    | some k => ⟨k, p⟩ :: locate after ls
    | none => locate after ls

/-- The tokens of a script; the last one, and no other, is its end. -/
def tokenize (script : String) : List Token := locate .start (lexemes script.toList)

end Lexer

end ScriptedModel.Script
