/-
Patterns for the values of fields: regular expressions. Only whether a text is one matters here.
Braces count repetitions, but no text of a filter's field can hold a closing one, so an opening
brace is refused wherever it does not stand for itself.
-/
import ScriptedModel.Text.Numeral

namespace ScriptedModel.Logging.Pattern

/-! ## Escapes -/

/-- What a backslash and what follows it stand for: a character, a class of characters, or a place
in a text. -/
inductive Escape
  | char (char : Char)
  | set
  | place
  deriving DecidableEq, Repr

/-- The letters after a backslash for characters that have no sign. -/
def controls : List (Char × Char) :=
  [('a', '\x07'), ('f', '\x0c'), ('t', '\t'), ('n', '\n'), ('r', '\r'), ('v', '\x0b')]

/-- How many hexadecimal digits follow a letter after a backslash. -/
def width? : Char → Option Nat
  | 'x' => some 2
  | 'u' => some 4
  | 'U' => some 8
  | _ => none

/-- What follows a backslash, and the rest. The edges of words are not looked for. -/
def escape? : List Char → Option (Escape × List Char)
  | [] => none
  | c :: cs =>
    match width? c with
    | some n => do
      let code ← Numeral.value? 16 (cs.take n)
      if n ≤ cs.length ∧ code.isValidChar then some (.char (Char.ofNat code), cs.drop n) else none
    | none =>
      if c = 'p' ∨ c = 'P' then
        if cs.head?.any ['C', 'L', 'M', 'N', 'P', 'S', 'Z'].contains then some (.set, cs.drop 1) else none
      else if ['d', 's', 'w', 'D', 'S', 'W'].contains c then some (.set, cs)
      else if c = 'A' ∨ c = 'z' then some (.place, cs)
      else match controls.find? (fun e => e.1 = c) with
        | some e => some (.char e.2, cs)
        | none =>
          if c.isAlphanum ∨ '\x7f' < c ∨ c = '<' ∨ c = '>' then none else some (.char c, cs)

/-! ## Classes -/

/-- The names of classes between colons. -/
def classNames : List String :=
  ["alnum", "alpha", "ascii", "blank", "cntrl", "digit", "graph", "lower", "print", "punct", "space",
    "upper", "word", "xdigit"]

/-- What follows the name of a class between colons and its closing bracket. -/
def afterName? (cs : List Char) : Option (List Char) :=
  match cs with
  | ':' :: '^' :: cs | ':' :: cs =>
    let name := cs.takeWhile (· ≠ ':')
    if classNames.contains (String.ofList name) ∧ (cs.drop name.length).take 2 = [':', ']'] then
      some (cs.drop (name.length + 2))
    else none
  | _ => none

/-- What follows the start of a class, where hyphens stand for themselves and so does a bracket
that comes first. -/
def afterOpening (cs : List Char) : List Char :=
  let cs := if cs.head? = some '^' then cs.tail else cs
  match cs with
  | ']' :: rest => rest
  | cs => cs.dropWhile (· = '-')

/-- A member of a class, a character or else a class, and what follows it. -/
def member? : List Char → Option (Option Char × List Char)
  | [] => none
  | '\\' :: cs =>
    match escape? cs with
    | some (.char c, rest) => some (some c, rest)
    | some (.set, rest) => some (none, rest)
    | _ => none
  | c :: cs => some (some c, cs)

/-- What follows a member of a class or a range of them. -/
def afterRange? (cs : List Char) : Option (List Char) := do
  let (first, rest) ← member? cs
  match rest with
  | '-' :: ']' :: _ | '-' :: '-' :: _ => some rest
  | '-' :: rest =>
    let (last, rest) ← member? rest
    if (← first) ≤ (← last) then some rest else none
  | _ => some rest

/-- What follows a class inside some others, read in so many steps at most. -/
def afterClass? : (steps depth : Nat) → List Char → Option (List Char)
  | 0, _, _ | _, _, [] => none
  | n + 1, depth, '[' :: cs =>
    match afterName? cs with
    | some rest => afterClass? n depth rest
    | none => afterClass? n (depth + 1) (afterOpening cs)
  | n + 1, depth, ']' :: cs => if depth = 0 then some cs else afterClass? n (depth - 1) cs
  | n + 1, depth, '&' :: '&' :: cs | n + 1, depth, '-' :: '-' :: cs | n + 1, depth, '~' :: '~' :: cs =>
    afterClass? n depth cs
  | n + 1, depth, cs => (afterRange? cs).bind (afterClass? n depth)

/-! ## Groups -/

/-- Whether flags are each given once, with one hyphen at most and none at the end. -/
def areFlags (flags : List Char) : Bool :=
  flags.all ['i', 'm', 's', 'U', 'u', 'R', 'x', '-'].contains && decide flags.Nodup &&
    flags.getLast? ≠ some '-'

/-- Whether a group may have a name. -/
def isName (name : List Char) : Bool :=
  name.head?.any (fun c => c.isAlpha || c = '_') &&
    name.all fun c => c.isAlphanum || ['_', '.', '[', ']'].contains c

/-- Whether a group is opened after a parenthesis, or only flags are set, and what follows. -/
def group? : List Char → Option (Bool × List Char)
  | '?' :: 'P' :: '<' :: cs | '?' :: '<' :: cs =>
    let name := cs.takeWhile (· ≠ '>')
    if isName name ∧ name.length < cs.length then some (true, cs.drop (name.length + 1)) else none
  | '?' :: cs =>
    let flags := cs.takeWhile fun c => c ≠ ':' && c ≠ ')'
    if areFlags flags then
      match cs.drop flags.length with
      | ':' :: rest => some (true, rest)
      | ')' :: rest => if flags = [] then none else some (false, rest)
      | _ => none
    else none
  | cs => some (true, cs)

/-! ## Patterns -/

/-- Whether a text goes on as a pattern inside some groups, read in so many steps at most; what
came before may be repeated or not. -/
def goesOn : (steps groups : Nat) → (repeatable : Bool) → List Char → Bool
  | _, groups, _, [] => groups = 0
  | 0, _, _, _ => false
  | n + 1, groups, repeatable, c :: cs =>
    if c = '(' then
      match group? cs with
      | some (true, rest) => goesOn n (groups + 1) false rest
      | some (false, rest) => goesOn n groups false rest
      | none => false
    else if c = ')' then groups ≠ 0 && goesOn n (groups - 1) true cs
    else if c = '|' then goesOn n groups false cs
    else if c = '*' ∨ c = '+' ∨ c = '?' then repeatable && goesOn n groups true cs
    else if c = '\x7b' then false
    else if c = '[' then
      match afterClass? cs.length 0 (afterOpening cs) with
      | some rest => goesOn n groups true rest
      | none => false
    else if c = '\\' then
      match escape? cs with
      | some (_, rest) => goesOn n groups true rest
      | none => false
    else goesOn n groups true cs

/-- Whether a text is a pattern. -/
def isPattern (cs : List Char) : Bool := goesOn cs.length 0 false cs

end ScriptedModel.Logging.Pattern
