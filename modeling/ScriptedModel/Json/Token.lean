/-
The tokens of a JSON text. A string is kept as its letters and a number as its digits: whether
they have a value is asked only of the strings and numbers that are used.
-/
import ScriptedModel.Text.Numeral

namespace ScriptedModel.Json

/-- The characters of a text, with a gap where its bytes are no character. -/
abbrev Source := List (Option Char)

/-- The characters of a text as a source without gaps. -/
def sourceOf (text : String) : Source := text.toList.map some

/-- A letter of a string: a character, a code unit written as an escape, or a gap. -/
inductive Letter
  | plain (c : Char)
  | unit (value : Nat)
  | gap
  deriving DecidableEq, Repr

/-- The digits of a number, as written; no fraction digits mean no point. -/
structure NumberText where
  negative : Bool
  whole : List Char
  fraction : List Char
  exponent? : Option (Bool × List Char)
  deriving DecidableEq, Repr

/-- A token of a JSON text. -/
inductive Token
  | openBracket
  | closeBracket
  | openBrace
  | closeBrace
  | comma
  | colon
  | null
  | bool (value : Bool)
  | number (text : NumberText)
  | string (letters : List Letter)
  deriving DecidableEq, Repr

namespace Token

/-! ## Strings -/

/-- The character that an escape letter other than u stands for. -/
def escaped? : Char → Option Char
  | '"' => some '"'
  | '\\' => some '\\'
  | '/' => some '/'
  | 'b' => some '\x08'
  | 'f' => some '\x0c'
  | 'n' => some '\n'
  | 'r' => some '\r'
  | 't' => some '\t'
  | _ => none

/-- The code unit that four hexadecimal digits spell. -/
def unit? (a b c d : Option Char) : Option Nat := do
  let ds ← [a, b, c, d].mapM id
  Numeral.value? 16 ds

/-- Puts a letter in front of those already read. -/
def push (l : Letter) (p : List Letter × Source) : List Letter × Source := (l :: p.1, p.2)

/-- The letters up to the closing quote, and the source after it. Control characters and unknown
escapes are refused. -/
def string? : Source → Option (List Letter × Source)
  | [] => none
  | some '"' :: r => some ([], r)
  | some '\\' :: some 'u' :: a :: b :: c :: d :: r =>
    match unit? a b c d with
    | some u => (string? r).map (push (.unit u))
    | none => none
  | some '\\' :: some e :: r =>
    match escaped? e with
    | some c => (string? r).map (push (.plain c))
    | none => none
  | some '\\' :: _ => none
  | some c :: r => if c.toNat < 0x20 then none else (string? r).map (push (.plain c))
  | none :: r => (string? r).map (push .gap)

/-! ## Numbers and names -/

/-- Splits a source after its leading characters of a class. -/
def span (p : Char → Bool) : Source → List Char × Source
  | some c :: r => if p c then (c :: (span p r).1, (span p r).2) else ([], some c :: r)
  | r => ([], r)

/-- The fraction of a number, which has a digit after its point, or none. -/
def fraction? : Source → Option (List Char × Source)
  | some '.' :: r =>
    let (ds, rest) := span Char.isDigit r
    if ds = [] then none else some (ds, rest)
  | r => some ([], r)

/-- The sign of an exponent; true for a minus. -/
def exponentSign : Source → Bool × Source
  | some '-' :: r => (true, r)
  | some '+' :: r => (false, r)
  | r => (false, r)

/-- The exponent of a number, which has a digit, or none. -/
def exponent? : Source → Option (Option (Bool × List Char) × Source)
  | some e :: r =>
    if e = 'e' ∨ e = 'E' then
      let (ds, rest) := span Char.isDigit (exponentSign r).2
      if ds = [] then none else some (some ((exponentSign r).1, ds), rest)
    else some (none, some e :: r)
  | r => some (none, r)

/-- The number after its sign. A whole part that begins with zero is zero. -/
def number? (negative : Bool) (r : Source) : Option (NumberText × Source) :=
  let (whole, r) := span Char.isDigit r
  if whole = [] ∨ (whole.head? = some '0' ∧ whole ≠ ['0']) then none
  else
    match fraction? r with
    | none => none
    | some (fraction, r) =>
      match exponent? r with
      | none => none
      | some (exponent, r) => some (⟨negative, whole, fraction, exponent⟩, r)

/-- The token that a name stands for. -/
def ofName? (name : List Char) : Option Token :=
  if name = ['n', 'u', 'l', 'l'] then some .null
  else if name = ['t', 'r', 'u', 'e'] then some (.bool true)
  else if name = ['f', 'a', 'l', 's', 'e'] then some (.bool false)
  else none

/-! ## Tokens -/

/-- The four characters that separate tokens. -/
def isBlank (c : Char) : Bool := c = ' ' ∨ c = '\t' ∨ c = '\n' ∨ c = '\r'

/-- The token of a single character. -/
def mark? : Char → Option Token
  | '[' => some .openBracket
  | ']' => some .closeBracket
  | '{' => some .openBrace
  | '}' => some .closeBrace
  | ',' => some .comma
  | ':' => some .colon
  | _ => none

/-- The token that begins with a character, and the source after it. -/
def next? (c : Char) (r : Source) : Option (Token × Source) :=
  match mark? c with
  | some t => some (t, r)
  | none =>
    if c = '"' then (string? r).map fun (ls, rest) => (.string ls, rest)
    else if c = '-' then (number? true r).map fun (n, rest) => (.number n, rest)
    else if c.isDigit then (number? false (some c :: r)).map fun (n, rest) => (.number n, rest)
    else
      let (name, rest) := span Char.isAlpha (some c :: r)
      (ofName? name).map fun t => (t, rest)

/-! ### The source after a token is shorter -/

theorem length_string?_le {r : Source} {p : List Letter × Source} (h : string? r = some p) :
    p.2.length ≤ r.length := by
  fun_induction string? r generalizing p with
  | case1 => simp at h
  | case2 r => simp only [Option.some.injEq] at h; subst h; simp
  | case3 a b c d r u hu ih =>
    obtain ⟨q, hq, rfl⟩ := Option.map_eq_some_iff.1 h
    have := ih hq
    simp only [push, List.length_cons]; omega
  | case4 => simp at h
  | case5 e r _ c hc ih =>
    obtain ⟨q, hq, rfl⟩ := Option.map_eq_some_iff.1 h
    have := ih hq
    simp only [push, List.length_cons]; omega
  | case6 => simp at h
  | case7 => simp at h
  | case8 => simp at h
  | case9 c r _ _ _ _ _ ih =>
    obtain ⟨q, hq, rfl⟩ := Option.map_eq_some_iff.1 h
    have := ih hq
    simp only [push, List.length_cons]; omega
  | case10 r ih =>
    obtain ⟨q, hq, rfl⟩ := Option.map_eq_some_iff.1 h
    have := ih hq
    simp only [push, List.length_cons]; omega

theorem length_span_le (p : Char → Bool) (r : Source) : (span p r).2.length ≤ r.length := by
  fun_induction span p r with
  | case1 c r hc ih => exact Nat.le_succ_of_le ih
  | case2 c r hc => exact Nat.le_refl _
  | case3 r hr => exact Nat.le_refl _

theorem length_fraction?_le {r : Source} {p : List Char × Source} (h : fraction? r = some p) :
    p.2.length ≤ r.length := by
  unfold fraction? at h
  split at h
  · rename_i r
    have := length_span_le Char.isDigit r
    simp only at h
    split at h
    · simp at h
    · simp only [Option.some.injEq] at h; subst h; simp; omega
  · simp only [Option.some.injEq] at h; subst h; simp

theorem length_exponentSign_le (r : Source) : (exponentSign r).2.length ≤ r.length := by
  unfold exponentSign; split <;> simp

theorem length_exponent?_le {r : Source} {p : Option (Bool × List Char) × Source}
    (h : exponent? r = some p) : p.2.length ≤ r.length := by
  unfold exponent? at h
  split at h
  · rename_i e r
    split at h
    · have h1 := length_span_le Char.isDigit (exponentSign r).2
      have h2 := length_exponentSign_le r
      simp only at h
      split at h
      · simp at h
      · simp only [Option.some.injEq] at h; subst h; simp; omega
    · simp only [Option.some.injEq] at h; subst h; simp
  · simp only [Option.some.injEq] at h; subst h; simp

theorem length_number?_le {negative : Bool} {r : Source} {p : NumberText × Source}
    (h : number? negative r = some p) : p.2.length ≤ (span Char.isDigit r).2.length := by
  unfold number? at h
  simp only at h
  split at h
  · simp at h
  · split at h
    · simp at h
    · rename_i f s hf
      split at h
      · simp at h
      · rename_i e s' he
        have h2 := length_fraction?_le hf
        have h3 := length_exponent?_le he
        simp only [Option.some.injEq] at h; subst h; simp_all; omega

theorem length_span_cons {p : Char → Bool} {c : Char} (hc : p c = true) (r : Source) :
    (span p (some c :: r)).2.length ≤ r.length := by
  simp [span, hc, length_span_le]

theorem length_next?_le {c : Char} {r : Source} {p : Token × Source} (h : next? c r = some p) :
    p.2.length ≤ r.length := by
  unfold next? at h
  split at h
  · simp only [Option.some.injEq] at h; subst h; simp
  · split at h
    · obtain ⟨q, hq, rfl⟩ := Option.map_eq_some_iff.1 h
      exact length_string?_le hq
    · split at h
      · obtain ⟨q, hq, rfl⟩ := Option.map_eq_some_iff.1 h
        exact Nat.le_trans (length_number?_le hq) (length_span_le _ _)
      · split at h
        · rename_i hd
          obtain ⟨q, hq, rfl⟩ := Option.map_eq_some_iff.1 h
          exact Nat.le_trans (length_number?_le hq) (length_span_cons hd _)
        · simp only at h
          obtain ⟨t, ht, rfl⟩ := Option.map_eq_some_iff.1 h
          by_cases ha : c.isAlpha
          · exact length_span_cons ha r
          · simp [span, ha, ofName?] at ht

/-- The tokens of a text, if all of it can be read. -/
def ofSource? : Source → Option (List Token)
  | [] => some []
  | none :: _ => none
  | some c :: r =>
    if isBlank c then ofSource? r
    else
      match _h : next? c r with
      | none => none
      | some (t, rest) => (ofSource? rest).map (t :: ·)
termination_by r => r.length
decreasing_by
  · simp
  · exact Nat.lt_succ_of_le (length_next?_le _h)

end Token

end ScriptedModel.Json
