/-
Where the tokens of a script stand. The place of a token counts the line feeds before it and the
characters after the last of these, whatever pieces they belong to, so it tells the offset at which the
piece of the token begins.

Main statement: the offsets of the tokens increase up to the length of the script, hence so do their
places; and where a script is faulty there stands one of its tokens that is not invalid.
-/
import Mathlib.Data.List.Induction
import ScriptedModel.Proofs.Script.Account
import ScriptedModel.Proofs.Script.Grammar

namespace ScriptedModel.Script

/-! ## Places and offsets -/

namespace Position

/-- The place of an offset in a text. -/
def ofOffset (cs : List Char) (n : Nat) : Position :=
  ⟨1 + (cs.take n).count '\n', 1 + ((cs.take n).reverse.takeWhile (· ≠ '\n')).length⟩

/-- Whether a place is on an earlier line than another, or further left on the same line. -/
def Before (p q : Position) : Prop := p.line < q.line ∨ p.line = q.line ∧ p.column < q.column

theorem Before.trans {p q r : Position} (h : p.Before q) (h' : q.Before r) : p.Before r := by
  unfold Before at *
  omega

theorem before_advance (p : Position) (c : Char) : p.Before (p.advance c) := by
  unfold Before advance
  split
  · exact .inl (Nat.lt_succ_self p.line)
  · exact .inr ⟨rfl, Nat.lt_succ_self p.column⟩

theorem before_foldl_advance (p : Position) {cs : List Char} (hcs : cs ≠ []) : p.Before (cs.foldl advance p) := by
  induction cs generalizing p with
  | nil => exact absurd rfl hcs
  | cons c cs ih =>
    rw [List.foldl_cons]
    by_cases hnil : cs = []
    · subst hnil
      exact p.before_advance c
    · exact (p.before_advance c).trans (ih _ hnil)

/-- Moving on past characters counts them, from the last line feed on. -/
theorem foldl_advance_start (cs : List Char) :
    cs.foldl advance .start = ⟨1 + cs.count '\n', 1 + (cs.reverse.takeWhile (· ≠ '\n')).length⟩ := by
  -- The last character decides whether columns are counted on or anew.
  induction cs using List.reverseRecOn with
  | nil => rfl
  | append_singleton cs c ih =>
    rw [List.foldl_append, ih, List.count_append, List.reverse_append]
    by_cases hc : c = '\n'
    · subst hc
      simp [advance, Nat.add_assoc]
    · simp [advance, hc, Nat.add_assoc]

theorem ofOffset_length_append (done rest : List Char) : ofOffset (done ++ rest) done.length = done.foldl advance .start := by
  rw [ofOffset, List.take_left, foldl_advance_start]

theorem before_ofOffset {cs : List Char} {m n : Nat} (hmn : m < n) (hn : n ≤ cs.length) :
    (ofOffset cs m).Before (ofOffset cs n) := by
  obtain ⟨k, rfl⟩ := Nat.exists_eq_add_of_lt hmn
  have hbetween : (cs.drop m).take (k + 1) ≠ [] := by
    intro hnil
    have hlength := congrArg List.length hnil
    simp only [List.length_take, List.length_drop, List.length_nil] at hlength
    omega
  have htake : cs.take (m + k + 1) = cs.take m ++ (cs.drop m).take (k + 1) := by
    rw [Nat.add_assoc, List.take_add]
  have h := before_foldl_advance ((cs.take m).foldl advance .start) hbetween
  rwa [← List.foldl_append, ← htake, foldl_advance_start, foldl_advance_start] at h

end Position

/-! ## Tokens and their characters -/

/-- The kinds of token by the character that they begin with. The text of an invalid token is in upper case. -/
inductive Token.Kind.BeginsWith : Option Char → Token.Kind → Prop
  | string {text : String} : BeginsWith (some '"') (.string text)
  | newline : BeginsWith (some '\n') .newline
  | number {c : Char} {n : Nat} (h : c.isDigit = true) : BeginsWith (some c) (.number n)
  | keyword {c : Char} {k : Keyword} (h : c.isAlpha = true) (hname : k.name.toList.head? = some c.toUpper) :
    BeginsWith (some c) (.keyword k)
  | invalid {c : Char} {text : String} (h : c ∉ [' ', '\t', '\r', '\n', '"']) (hdigit : c.isDigit = false)
    (htext : text.toList.head? = some c.toUpper) : BeginsWith (some c) (.invalid text)
  | endOfInput : BeginsWith none .endOfInput

/-- The kinds of token by the text from which on they are read: that of a piece and what comes after it, or none. -/
inductive Token.Kind.Heads : List Char → Token.Kind → Prop
  | piece {l : Lexeme} {k : Token.Kind} {after : List Char} (h : IsPiece after l) (hk : l.kind? = some k) :
    Heads (l.source ++ after) k
  | endOfInput : Heads [] .endOfInput

/-- What it means that a token stands at an offset of a text. -/
structure Token.StandsAt (cs : List Char) (n : Nat) (t : Token) : Prop where
  within : n ≤ cs.length
  line : t.position.line = 1 + (cs.take n).count '\n'
  column : t.position.column = 1 + ((cs.take n).reverse.takeWhile (· ≠ '\n')).length
  first : t.kind.BeginsWith cs[n]?
  heads : t.kind.Heads (cs.drop n)

theorem Token.StandsAt.position {cs : List Char} {n : Nat} {t : Token} (h : t.StandsAt cs n) :
    t.position = .ofOffset cs n := by
  rw [Position.ofOffset, ← h.line, ← h.column]

namespace Lexer

theorem toUpper_of_isAlpha {c : Char} (h : c.isAlpha = false) : c.toUpper = c := by
  refine dif_neg fun hlower => ?_
  have hletter : (c.isUpper || decide (c.val ≥ 'a'.val) && decide (c.val ≤ 'z'.val)) = false := h
  rw [decide_eq_true hlower.1, decide_eq_true hlower.2, Bool.and_true, Bool.or_true] at hletter
  cases hletter

theorem notMem_of_isAlpha {c : Char} (h : c.isAlpha = true) : c ∉ [' ', '\t', '\r', '\n', '"'] := by
  intro hmem
  have hnone : [' ', '\t', '\r', '\n', '"'].all (fun c => !c.isAlpha) = true := rfl
  have := List.all_eq_true.1 hnone c hmem
  rw [h] at this
  cases this

theorem source_ne_nil {after : List Char} {l : Lexeme} (h : IsPiece after l) : l.source ≠ [] := by
  obtain ⟨c, cs, hsource, -⟩ := next_of_isPiece h
  rw [hsource]
  exact List.cons_ne_nil c cs

/-- What a token is read from begins with the character that its kind begins with. -/
theorem beginsWith_of_heads {cs : List Char} {k : Token.Kind} (h : k.Heads cs) : k.BeginsWith cs.head? := by
  cases h with
  | endOfInput => exact .endOfInput
  | piece h hk =>
    cases h with
    | blank h => cases hk
    | lineFeed => cases hk; exact .newline
    | literal h => cases hk; exact .string
    | openLiteral hend h => cases hk; exact .string
    | @number ds hne hds hend =>
      cases hk
      obtain ⟨d, ds, rfl⟩ := List.exists_cons_of_ne_nil hne
      exact .number (hds d List.mem_cons_self)
    | @keyword c cs hc hcs hend k hkeyword =>
      cases hk
      exact .keyword hc (by rw [← hkeyword]; rfl)
    | strangeWord hc hcs hend hk' =>
      cases hk
      exact .invalid (notMem_of_isAlpha hc) (isDigit_of_isAlpha hc) (by rw [String.toList_ofList]; rfl)
    | @other c hblank hline hquote hdigit hletter =>
      cases hk
      refine .invalid ?_ hdigit ?_
      · simp [hblank, hline, hquote]
      · rw [toUpper_of_isAlpha hletter, String.toList_singleton]
        rfl

/-! ## The offsets of tokens -/

/-- The offsets at which the tokens of lexemes begin, the first lexeme at an offset, and that of the end. -/
def offsetsFrom : Nat → List Lexeme → List Nat
  | n, [] => [n]
  | n, l :: ls =>
    if l.isToken then n :: offsetsFrom (n + l.source.length) ls else offsetsFrom (n + l.source.length) ls

theorem le_of_mem_offsetsFrom {n m : Nat} {ls : List Lexeme} (h : m ∈ offsetsFrom n ls) : n ≤ m := by
  fun_induction offsetsFrom n ls with
  | case1 n => exact Nat.le_of_eq (List.mem_singleton.1 h).symm
  | case2 n l ls hl ih =>
    rcases List.mem_cons.1 h with rfl | h
    · exact Nat.le_refl m
    · have := ih h
      omega
  | case3 n l ls hl ih =>
    have := ih h
    omega

theorem pairwise_offsetsFrom (n : Nat) {cs : List Char} {ls : List Lexeme} (h : Cut cs ls) :
    (offsetsFrom n ls).Pairwise (· < ·) := by
  induction h generalizing n with
  | nil => exact List.pairwise_singleton _ n
  | @cons l ls r h hs ih =>
    have hlength := List.length_pos_iff.2 (source_ne_nil h)
    rw [offsetsFrom]
    split
    · refine .cons (fun m hm => ?_) (ih _)
      have := le_of_mem_offsetsFrom hm
      omega
    · exact ih _

theorem getLast?_offsetsFrom (n : Nat) (ls : List Lexeme) :
    (offsetsFrom n ls).getLast? = some (n + (ls.flatMap Lexeme.source).length) := by
  fun_induction offsetsFrom n ls with
  | case1 n => rfl
  | case2 n l ls hl ih => rw [List.getLast?_cons, ih, List.flatMap_cons, List.length_append, Nat.add_assoc]; rfl
  | case3 n l ls hl ih => rw [ih, List.flatMap_cons, List.length_append, Nat.add_assoc]

/-- Each token stands at its offset, where some of the text was cut before. -/
theorem standsAt_locate (done : List Char) {cs : List Char} {ls : List Lexeme} (h : Cut cs ls) :
    List.Forall₂ (Token.StandsAt (done ++ cs)) (offsetsFrom done.length ls) (locate (done.foldl Position.advance .start) ls) := by
  -- A token is placed when its piece begins, so the place is that of the text cut so far.
  have hstands : ∀ (done cs : List Char) (k : Token.Kind), k.Heads cs →
      Token.StandsAt (done ++ cs) done.length ⟨k, done.foldl Position.advance .start⟩ := by
    intro done cs k hk
    have hplace := Position.ofOffset_length_append done cs
    have hdrop : (done ++ cs).drop done.length = cs := List.drop_left
    refine ⟨by simp, by rw [← hplace]; rfl, by rw [← hplace]; rfl, ?_, by rwa [hdrop]⟩
    rw [← List.head?_drop, hdrop]
    exact beginsWith_of_heads hk
  induction h generalizing done with
  | nil => exact .cons (hstands done [] _ .endOfInput) .nil
  | @cons l ls r h hs ih =>
    have hrest := ih (done ++ l.source)
    rw [List.length_append, List.foldl_append, List.append_assoc] at hrest
    rw [offsetsFrom, locate, Lexeme.isToken]
    cases hk : l.kind? with
    | none => exact hrest
    | some k => exact .cons (hstands done _ k (.piece h hk)) hrest

/-- Tokens that stand at increasing offsets have increasing places. -/
theorem pairwise_before {cs : List Char} {offsets : List Nat} {ts : List Token}
    (h : List.Forall₂ (Token.StandsAt cs) offsets ts) (hoffsets : offsets.Pairwise (· < ·)) :
    ts.Pairwise fun s t => s.position.Before t.position := by
  obtain ⟨hlength, hstands⟩ := List.forall₂_iff_get.1 h
  rw [List.pairwise_iff_getElem] at hoffsets ⊢
  intro i j hi hj hij
  have hi' : i < offsets.length := by omega
  have hj' : j < offsets.length := by omega
  have hfirst : Token.StandsAt cs offsets[i] ts[i] := hstands i hi' hi
  have hsecond : Token.StandsAt cs offsets[j] ts[j] := hstands j hj' hj
  rw [hfirst.position, hsecond.position]
  exact Position.before_ofOffset (hoffsets i j hi' hj' hij) hsecond.within

end Lexer

/-! ## The place of a fault -/

/-- Tokens with an end are faulty at one of them, and at none that is invalid. -/
theorem exists_token_of_parse {ts : List Token} (hend : ∃ t ∈ ts, t.isEnd = true) {e : ParseError}
    (h : parse ts = .error e) : ∃ t ∈ ts, t.position = e.position ∧ ∀ text, t.kind ≠ .invalid text := by
  obtain ⟨ss, rest, warned, fault?, hdivides, hends⟩ := exists_division ts
  have hcovers := eq_append_of_divides hdivides
  have hfault := parse_of_divides hdivides hends
  rw [h] at hfault
  cases hends with
  | exhausted => cases hfault
  | endOfInput => cases hfault
  | @faulty k p operands us param htakes hnext =>
    cases hfault
    rcases us with _ | ⟨t, us⟩
    · -- The end is nowhere among the tokens that were taken, so there is one more after them.
      exfalso
      obtain ⟨t, ht, hisEnd⟩ := hend
      rw [hcovers, List.append_nil, List.mem_append, List.mem_cons] at ht
      rcases ht with ht | rfl | ht
      · obtain ⟨x, hx, rfl⟩ := List.mem_map.1 ht
        rw [(suits_of_divides hdivides x hx).isEnd] at hisEnd
        cases hisEnd
      · cases hisEnd
      · rw [(suits_of_takes htakes t ht).isEnd] at hisEnd
        cases hisEnd
    · refine ⟨t, ?_, rfl, fun text htext => hnext text (congrArg some htext)⟩
      rw [hcovers]
      simp

open Lexer

/-- Every token of a script stands at an offset of its own, in order and up to the end of the script, so each
is placed before the next. A faulty script is faulty where one of its tokens stands, and not at an invalid one. -/
theorem tokenize_places (script : String) :
    (∃ offsets : List Nat, offsets.Pairwise (· < ·) ∧ offsets.getLast? = some script.length ∧
        List.Forall₂ (Token.StandsAt script.toList) offsets (tokenize script)) ∧
      (tokenize script).Pairwise (fun s t => s.position.Before t.position) ∧
      ∀ e, parseScript script = .error e →
        (∃ t ∈ tokenize script, t.position = e.position ∧ ∀ text, t.kind ≠ .invalid text) ∧
          1 ≤ e.position.line ∧ 1 ≤ e.position.column ∧ e.position ≠ .nowhere := by
  have hcut := cut_lexemes script.toList
  have hoffsets := pairwise_offsetsFrom 0 hcut
  have hstands : List.Forall₂ (Token.StandsAt script.toList) (offsetsFrom 0 (lexemes script.toList)) (tokenize script) :=
    standsAt_locate [] hcut
  refine ⟨⟨_, hoffsets, ?_, hstands⟩, pairwise_before hstands hoffsets, fun e he => ?_⟩
  · rw [getLast?_offsetsFrom, flatMap_source_lexemes, Nat.zero_add, String.length_toList]
  · have hend : ∃ t ∈ tokenize script, t.isEnd = true := by
      rw [tokenize_eq]
      exact ⟨_, List.mem_append_right _ List.mem_cons_self, rfl⟩
    obtain ⟨t, ht, hposition, hinvalid⟩ := exists_token_of_parse hend he
    obtain ⟨i, hi, hti⟩ := List.mem_iff_getElem.1 ht
    obtain ⟨hlength, hget⟩ := List.forall₂_iff_get.1 hstands
    have hline := (hget i (by omega) hi).line
    have hcolumn := (hget i (by omega) hi).column
    rw [List.get_eq_getElem, hti, hposition] at hline hcolumn
    refine ⟨⟨t, ht, hposition, hinvalid⟩, by omega, by omega, fun hnowhere => ?_⟩
    have hzero : e.position.line = 0 := congrArg Position.line hnowhere
    omega

/-- A script with a line feed in a literal lacks an operand at its end, on the second line. -/
theorem tokenize_places_literal :
    let script := "SAY \"a\nb\" SAY"
    let e : ParseError := ⟨⟨2, 7⟩, "Expected string after SAY"⟩
    parseScript script = .error e ∧
      (∃ t ∈ tokenize script, t.position = e.position ∧ ∀ text, t.kind ≠ .invalid text) ∧ e.position ≠ .nowhere := by
  intro script e
  have he : parseScript script = .error e := by decide +kernel
  obtain ⟨-, -, hfault⟩ := tokenize_places script
  obtain ⟨htoken, -, -, hnowhere⟩ := hfault e he
  exact ⟨he, htoken, hnowhere⟩

end ScriptedModel.Script
