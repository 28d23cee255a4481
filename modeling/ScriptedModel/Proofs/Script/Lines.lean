/-
Scripts that stand one after another on lines of their own. Where the first does not end inside a
literal, the line feed after it is a token, and what follows is cut into lexemes as it is by itself.

Main statement: the tokens are those of the first script, a line feed where it ends, and those of the
second, further down by the lines of the first.
-/
import Mathlib.Data.List.TakeWhile
import ScriptedModel.Proofs.Script.Settings

namespace ScriptedModel.Script

/-! ## Closed texts -/

namespace Lexer

/-- Whether a text ends inside a literal, where `inside` tells whether it begins inside one. -/
def endsInside : Bool → List Char → Bool
  | inside, [] => inside
  | false, c :: r => endsInside (c = '"') r
  | true, '"' :: r => endsInside false r
  | true, '\\' :: c :: r => if (escaped? c).isSome then endsInside true r else endsInside true (c :: r)
  | true, _ :: r => endsInside true r

theorem literalBody_append_eq (r : List Char) : (literalBody r).1 ++ (literalBody r).2 = r := by
  fun_induction literalBody r <;> simp_all

theorem literalBody_of_ne {c : Char} (hquote : c ≠ '"') (hbackslash : c ≠ '\\') (r : List Char) :
    literalBody (c :: r) = (c :: (literalBody r).1, (literalBody r).2) := by
  rw [literalBody]
  all_goals simp_all

theorem ne_backslash {c : Char} {r : List Char} (hlone : c = '\\' → r = [] → False)
    (hescape : ∀ d s, c = '\\' → r = d :: s → False) : c ≠ '\\' := by
  rintro rfl
  rcases r with _ | ⟨d, s⟩
  · exact hlone rfl rfl
  · exact hescape d s rfl rfl

/-- A literal that is closed ends where it does whatever comes after. -/
theorem literalBody_append {r : List Char} (h : (literalBody r).2 ≠ []) (b : List Char) :
    literalBody (r ++ b) = ((literalBody r).1, (literalBody r).2 ++ b) := by
  fun_induction literalBody r with
  | case1 => exact absurd rfl h
  | case2 r => rw [List.cons_append, literalBody]
  | case3 => exact absurd rfl h
  | case4 c r hc ih => rw [List.cons_append, List.cons_append, literalBody, if_pos hc, ih h]
  | case5 c r hc ih => rw [List.cons_append, List.cons_append, literalBody, if_neg hc, ← List.cons_append, ih h]
  | case6 c r hquote hlone hescape ih =>
    rw [List.cons_append, literalBody_of_ne hquote (ne_backslash hlone hescape), ih h]

/-- A literal that is open stays open on the next line. -/
theorem literalBody_lineFeed {r : List Char} (h : (literalBody r).2 = []) : (literalBody (r ++ ['\n'])).2 = [] := by
  fun_induction literalBody r with
  | case1 => rfl
  | case2 r => cases h
  | case3 => rfl
  | case4 c r hc ih => rw [List.cons_append, List.cons_append, literalBody, if_pos hc, ih h]
  | case5 c r hc ih => rw [List.cons_append, List.cons_append, literalBody, if_neg hc, ← List.cons_append, ih h]
  | case6 c r hquote hlone hescape ih =>
    rw [List.cons_append, literalBody_of_ne hquote (ne_backslash hlone hescape), ih h]

theorem endsInside_true (r : List Char) :
    endsInside true r = match (literalBody r).2 with
      | [] => true
      | _ :: rest => endsInside false rest := by
  fun_induction literalBody r with
  | case1 => rfl
  | case2 r => rfl
  | case3 => rfl
  | case4 c r hc ih => rw [endsInside, if_pos hc, ih]
  | case5 c r hc ih => rw [endsInside, if_neg hc, ih]
  | case6 c r hquote hlone hescape ih =>
    have hbackslash := ne_backslash hlone hescape
    rw [endsInside, ih]
    all_goals simp_all

theorem endsInside_append_of_notMem {ds : List Char} (h : '"' ∉ ds) (r : List Char) :
    endsInside false (ds ++ r) = endsInside false r := by
  induction ds with
  | nil => rfl
  | cons d ds ih =>
    rw [List.mem_cons, not_or] at h
    rw [List.cons_append, endsInside, decide_eq_false (Ne.symm h.1), ih h.2]

/-! ## Lexemes of a line -/

/-- Whether the literal that begins with a character is open at the end of the text. -/
def IsOpen (c : Char) (r : List Char) : Prop := c = '"' ∧ (literalBody r).2 = []

/-- A run of characters that a line feed ends is the same where more lines follow. -/
theorem span_lineFeed {p : Char → Bool} (hp : p '\n' = false) (r b : List Char) :
    (r ++ '\n' :: b).takeWhile p = r.takeWhile p ∧ (r ++ '\n' :: b).dropWhile p = r.dropWhile p ++ '\n' :: b := by
  induction r with
  | nil => simp [hp]
  | cons c r ih =>
    rw [List.cons_append, List.takeWhile_cons, List.takeWhile_cons, List.dropWhile_cons, List.dropWhile_cons, ih.1,
      ih.2]
    cases p c <;> simp

/-- A run without quotes does not matter to where a text ends. -/
theorem endsInside_dropWhile {p : Char → Bool} (hp : p '"' = false) (r : List Char) :
    endsInside false (r.dropWhile p) = endsInside false r := by
  have hquote : '"' ∉ r.takeWhile p := by
    intro h
    have := List.mem_takeWhile_imp h
    rw [hp] at this
    cases this
  rw [← endsInside_append_of_notMem hquote, List.takeWhile_append_dropWhile]

/-- What follows a lexeme ends inside a literal exactly if the whole does. -/
theorem endsInside_next {c : Char} {r : List Char} (h : ¬ IsOpen c r) :
    endsInside false (next c r).2 = endsInside false (c :: r) := by
  by_cases hc : c = '"'
  · subst hc
    have hclosed : (literalBody r).2 ≠ [] := fun hr => h ⟨rfl, hr⟩
    show endsInside false (literal r).2 = endsInside true r
    rw [endsInside_true, literal]
    rcases hrest : (literalBody r).2 with _ | ⟨q, rest⟩
    · exact absurd hrest hclosed
    · rfl
  · rw [endsInside, decide_eq_false hc, next]
    split
    · rfl
    split
    · rfl
    split
    · exact endsInside_dropWhile rfl r
    split
    · exact endsInside_dropWhile rfl r
    · rfl

/-- A lexeme that is no open literal is the same where more lines follow. -/
theorem next_append {c : Char} {r : List Char} (h : ¬ IsOpen c r) (b : List Char) :
    next c (r ++ '\n' :: b) = ((next c r).1, (next c r).2 ++ '\n' :: b) := by
  unfold next
  split
  · rfl
  split
  · rfl
  split
  · rename_i hc
    subst hc
    have hclosed : (literalBody r).2 ≠ [] := fun hr => h ⟨rfl, hr⟩
    rw [literal, literal, literalBody_append hclosed]
    rcases hrest : (literalBody r).2 with _ | ⟨q, rest⟩
    · exact absurd hrest hclosed
    · rfl
  split
  · obtain ⟨htake, hdrop⟩ := span_lineFeed (p := Char.isDigit) rfl r b
    rw [htake, hdrop]
  split
  · obtain ⟨htake, hdrop⟩ := span_lineFeed (p := Char.isAlphanum) rfl r b
    rw [htake, hdrop]
  · rfl

/-- The lexemes of a text that does not end inside a literal are the same where more lines follow. -/
theorem lexemes_append {a : List Char} (h : endsInside false a = false) (b : List Char) :
    lexemes (a ++ '\n' :: b) = lexemes a ++ ⟨['\n'], some .newline⟩ :: lexemes b := by
  fun_induction lexemes a with
  | case1 =>
    rw [List.nil_append, lexemes]
    rfl
  | case2 c r ih =>
    have hopen : ¬ IsOpen c r := by
      rintro ⟨rfl, hr⟩
      have hinside : endsInside true r = false := h
      rw [endsInside_true, hr] at hinside
      cases hinside
    rw [List.cons_append, lexemes, next_append hopen, ih ((endsInside_next hopen).trans h)]
    rfl

/-- A text that ends inside a literal still does so on the next line. -/
theorem lexemes_lineFeed {a : List Char} (h : endsInside false a = true) :
    ∃ ls source text, lexemes (a ++ ['\n']) = ls ++ [⟨source, some (.string text)⟩] := by
  fun_induction lexemes a with
  | case1 => cases h
  | case2 c r ih =>
    rw [List.cons_append, lexemes]
    by_cases hopen : IsOpen c r
    · obtain ⟨rfl, hr⟩ := hopen
      refine ⟨[], '"' :: (literalBody (r ++ ['\n'])).1, String.ofList (unescape (literalBody (r ++ ['\n'])).1), ?_⟩
      show (literal (r ++ ['\n'])).1 :: lexemes (literal (r ++ ['\n'])).2 = _
      rw [literal, literalBody_lineFeed hr]
      show _ :: lexemes [] = _
      rw [lexemes]
      rfl
    · obtain ⟨ls, source, text, hls⟩ := ih ((endsInside_next hopen).trans h)
      refine ⟨(next c r).1 :: ls, source, text, ?_⟩
      rw [next_append hopen, hls]
      rfl

/-! ## Places of lexemes -/

theorem source_next (c : Char) (r : List Char) : (next c r).1.source ++ (next c r).2 = c :: r := by
  have hbody := literalBody_append_eq r
  unfold next literal
  repeat' split
  all_goals simp_all

theorem flatMap_source_lexemes (cs : List Char) : (lexemes cs).flatMap Lexeme.source = cs := by
  fun_induction lexemes cs with
  | case1 => rfl
  | case2 c r ih => rw [List.flatMap_cons, ih, source_next]

theorem kind?_next_ne_end (c : Char) (r : List Char) : (next c r).1.kind? ≠ some .endOfInput := by
  have hword : ∀ word, wordKind word ≠ .endOfInput := by
    intro word
    unfold wordKind
    simp only
    split <;> simp
  unfold next literal
  repeat' split
  all_goals simp [hword]

theorem kind?_ne_end {cs : List Char} {l : Lexeme} (h : l ∈ lexemes cs) : l.kind? ≠ some .endOfInput := by
  fun_induction lexemes cs with
  | case1 => cases h
  | case2 c r ih =>
    rcases List.mem_cons.1 h with rfl | h
    · exact kind?_next_ne_end c r
    · exact ih h

end Lexer

/-! ## Tokens of lines -/

namespace Position

/-- The place that many lines further down. -/
def down (n : Nat) (p : Position) : Position := ⟨p.line + n, p.column⟩

theorem down_advance (n : Nat) (p : Position) (c : Char) : (p.down n).advance c = (p.advance c).down n := by
  unfold advance down
  split
  · rw [Nat.add_right_comm]
  · rfl

theorem down_foldl_advance (n : Nat) (p : Position) (cs : List Char) :
    cs.foldl advance (p.down n) = (cs.foldl advance p).down n := by
  induction cs generalizing p with
  | nil => rfl
  | cons c cs ih => rw [List.foldl_cons, down_advance, ih, List.foldl_cons]

/-- Each line feed leads a line further down. -/
theorem line_foldl_advance (p : Position) (cs : List Char) : (cs.foldl advance p).line = p.line + cs.count '\n' := by
  induction cs generalizing p with
  | nil => rfl
  | cons c cs ih =>
    rw [List.foldl_cons, ih, List.count_cons, advance]
    by_cases hc : c = '\n'
    · rw [if_pos hc, if_pos (beq_iff_eq.2 hc)]
      show p.line + 1 + _ = _
      omega
    · rw [if_neg hc, if_neg (by simpa using hc)]
      rfl

end Position

/-- The token that many lines further down. -/
def Token.down (n : Nat) (t : Token) : Token := ⟨t.kind, t.position.down n⟩

/-- The fault that many lines further down. -/
def ParseError.down (n : Nat) (e : ParseError) : ParseError := ⟨e.position.down n, e.message⟩

namespace Lexer

theorem locate_ne_nil (p : Position) (ls : List Lexeme) : locate p ls ≠ [] := by
  induction ls generalizing p with
  | nil => exact List.cons_ne_nil _ _
  | cons l ls ih =>
    unfold locate
    rcases l.kind? with _ | k
    · exact ih _
    · exact List.cons_ne_nil _ _

theorem locate_append (p : Position) (ls ls' : List Lexeme) :
    locate p (ls ++ ls') =
      (locate p ls).dropLast ++ locate ((ls.flatMap Lexeme.source).foldl Position.advance p) ls' := by
  induction ls generalizing p with
  | nil => rfl
  | cons l ls ih =>
    rw [List.cons_append, locate, locate, List.flatMap_cons, List.foldl_append, ih]
    rcases l.kind? with _ | k
    · rfl
    · simp only
      rw [List.dropLast_cons_of_ne_nil (locate_ne_nil _ ls), List.cons_append]

theorem locate_down (n : Nat) (p : Position) (ls : List Lexeme) :
    locate (p.down n) ls = (locate p ls).map (Token.down n) := by
  induction ls generalizing p with
  | nil => rfl
  | cons l ls ih =>
    rw [locate, locate, Position.down_foldl_advance, ih]
    rcases l.kind? with _ | k <;> rfl

theorem isEnd_of_mem_dropLast_locate {ls : List Lexeme} (hls : ∀ l ∈ ls, l.kind? ≠ some .endOfInput) (p : Position)
    {t : Token} (h : t ∈ (locate p ls).dropLast) : t.isEnd = false := by
  induction ls generalizing p with
  | nil => cases h
  | cons l ls ih =>
    have hrest := ih (fun x hx => hls x (List.mem_cons_of_mem l hx)) (l.source.foldl Position.advance p)
    have hl := hls l List.mem_cons_self
    rw [locate] at h
    rcases hk : l.kind? with _ | k
    · rw [hk] at h
      exact hrest h
    · rw [hk] at h hl
      simp only [List.dropLast_cons_of_ne_nil (locate_ne_nil _ ls)] at h
      rcases List.mem_cons.1 h with rfl | h
      · simpa [Token.isEnd] using hl
      · exact hrest h

/-- The place where a script ends. -/
def endOf (script : String) : Position := script.toList.foldl Position.advance .start

/-- The tokens before the end of a script. -/
def tokensBefore (script : String) : List Token := (tokenize script).dropLast

theorem tokenize_eq (script : String) :
    tokenize script = tokensBefore script ++ [⟨.endOfInput, endOf script⟩] := by
  have h := locate_append .start (lexemes script.toList) []
  rw [List.append_nil, flatMap_source_lexemes] at h
  exact h

theorem isEnd_of_mem_tokensBefore {script : String} {t : Token} (h : t ∈ tokensBefore script) : t.isEnd = false :=
  isEnd_of_mem_dropLast_locate (fun _ hl => kind?_ne_end hl) .start h

end Lexer

open Lexer

/-- Whether a script does not end inside a literal. -/
def IsClosed (script : String) : Prop := endsInside false script.toList = false

/-- The number of line feeds in a text. -/
def lineFeeds (text : String) : Nat := text.toList.count '\n'

/-- The tokens of two scripts, the second on a line of its own. -/
theorem tokenize_lines {a : String} (ha : IsClosed a) (b : String) :
    tokenize (a ++ "\n" ++ b) =
      tokensBefore a ++ ⟨.newline, endOf a⟩ :: (tokenize b).map (Token.down (lineFeeds a + 1)) := by
  have htext : (a ++ "\n" ++ b).toList = a.toList ++ '\n' :: b.toList := by simp
  have hplace : (endOf a).advance '\n' = Position.start.down (lineFeeds a + 1) := by
    show (⟨(endOf a).line + 1, 1⟩ : Position) = _
    rw [endOf, Position.line_foldl_advance, Nat.add_assoc]
    rfl
  rw [tokenize, htext, lexemes_append ha, locate_append, flatMap_source_lexemes]
  show tokensBefore a ++ ⟨.newline, endOf a⟩ :: locate ((endOf a).advance '\n') (lexemes b.toList) = _
  rw [hplace, locate_down]
  rfl

end ScriptedModel.Script
