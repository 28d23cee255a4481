/-
The lexical grammar of scripts. A script is cut into pieces of a few sorts, each told by its own
characters and by what comes after it: a run of digits, or of letters and digits, goes on as long as it
can, and a literal goes on to the first quote that no escape covers, or to the end.

Main statement: a script is cut in exactly one way, nothing of it is lost, and its tokens are those of
the pieces, each where its piece begins. Blanks do not matter to their kinds, nor do the cases of words.
-/
import Mathlib.Data.List.Forall2
import ScriptedModel.Proofs.Script.Lines
import ScriptedModel.Proofs.Script.Printing

namespace ScriptedModel.Script

/-! ## The grammar -/

/-- What the body of a literal is decoded to, by what comes after it. A backslash that begins no escape
is itself, and the character after it is read like any other. -/
inductive Decodes (after : List Char) : List Char → List Char → Prop
  | nil : Decodes after [] []
  | pair {e c : Char} {cs text : List Char} (he : (e, c) ∈ literalEscapes) (h : Decodes after cs text) :
    Decodes after ('\\' :: e :: cs) (c :: text)
  | backslash {cs text : List Char} (hnext : ∀ e ∈ (cs ++ after).head?, ∀ c, (e, c) ∉ literalEscapes)
    (h : Decodes after cs text) : Decodes after ('\\' :: cs) ('\\' :: text)
  | itself {c : Char} {cs text : List Char} (hquote : c ≠ '"') (hbackslash : c ≠ '\\') (h : Decodes after cs text) :
    Decodes after (c :: cs) (c :: text)

/-- The pieces of a script and the kinds of token they stand for, by what comes after them. -/
inductive IsPiece (after : List Char) : Lexeme → Prop
  | blank {c : Char} (h : c = ' ' ∨ c = '\t' ∨ c = '\r') : IsPiece after ⟨[c], none⟩
  | lineFeed : IsPiece after ⟨['\n'], some .newline⟩
  | literal {body text : List Char} (h : Decodes ('"' :: after) body text) :
    IsPiece after ⟨'"' :: (body ++ ['"']), some (.string (String.ofList text))⟩
  | openLiteral {body text : List Char} (hend : after = []) (h : Decodes [] body text) :
    IsPiece after ⟨'"' :: body, some (.string (String.ofList text))⟩
  | number {ds : List Char} (hne : ds ≠ []) (hds : ∀ d ∈ ds, d.isDigit = true)
    (hend : ∀ c ∈ after.head?, c.isDigit = false) :
    IsPiece after ⟨ds, some (.number (min (Numeral.value 10 ds) (UInt64.size - 1)))⟩
  | keyword {c : Char} {cs : List Char} (hc : c.isAlpha = true) (hcs : ∀ d ∈ cs, d.isAlphanum = true)
    (hend : ∀ d ∈ after.head?, d.isAlphanum = false) {k : Keyword} (hk : SpellsKeyword k (c :: cs)) :
    IsPiece after ⟨c :: cs, some (.keyword k)⟩
  | strangeWord {c : Char} {cs : List Char} (hc : c.isAlpha = true) (hcs : ∀ d ∈ cs, d.isAlphanum = true)
    (hend : ∀ d ∈ after.head?, d.isAlphanum = false) (hk : ∀ k, ¬ SpellsKeyword k (c :: cs)) :
    IsPiece after ⟨c :: cs, some (.invalid (String.ofList ((c :: cs).map Char.toUpper)))⟩
  | other {c : Char} (hblank : c ≠ ' ' ∧ c ≠ '\t' ∧ c ≠ '\r') (hline : c ≠ '\n') (hquote : c ≠ '"')
    (hdigit : c.isDigit = false) (hletter : c.isAlpha = false) :
    IsPiece after ⟨[c], some (.invalid (String.singleton c))⟩

/-- The ways to cut a text into pieces, one after another. -/
inductive Cut : List Char → List Lexeme → Prop
  | nil : Cut [] []
  | cons {l : Lexeme} {ls : List Lexeme} {r : List Char} (h : IsPiece r l) (hs : Cut r ls) :
    Cut (l.source ++ r) (l :: ls)

namespace Lexeme

/-- Whether a piece stands for a token. -/
def isToken (l : Lexeme) : Bool := l.kind?.isSome

/-- Whether a piece begins with a letter. -/
def IsWord (l : Lexeme) : Prop := ∃ c ∈ l.source.head?, c.isAlpha = true

/-- Pieces with the same text, or words that differ in the cases of their letters at most. -/
def Alike (l m : Lexeme) : Prop :=
  l.source = m.source ∨ l.IsWord ∧ m.IsWord ∧ l.source.map Char.toUpper = m.source.map Char.toUpper

end Lexeme

/-- Of what comes after a body the first character matters alone. -/
theorem Decodes.congr {after other cs text : List Char} (hhead : after.head? = other.head?) (h : Decodes after cs text) :
    Decodes other cs text := by
  induction h with
  | nil => exact .nil
  | pair he h ih => exact .pair he ih
  | backslash hnext h ih =>
    refine .backslash ?_ ih
    rwa [List.head?_append, ← hhead, ← List.head?_append]
  | itself hquote hbackslash h ih => exact .itself hquote hbackslash ih

namespace Lexer

/-! ## Literals -/

theorem mem_literalEscapes_iff {e c : Char} : (e, c) ∈ literalEscapes ↔ escaped? e = some c := by
  refine ⟨escaped?_of_mem, fun h => ?_⟩
  unfold escaped? at h
  split at h <;> cases h <;> simp [literalEscapes]

theorem unescape_backslash {cs text : List Char} (h : ∀ e ∈ cs.head?, escaped? e = none) (hcs : unescape cs = text) :
    unescape ('\\' :: cs) = '\\' :: text := by
  subst hcs
  cases cs with
  | nil => rfl
  | cons c cs => rw [unescape, h c rfl]

/-- The lexer reads a literal the way the grammar does. -/
theorem decodes_literalBody (r : List Char) :
    Decodes (literalBody r).2 (literalBody r).1 (unescape (literalBody r).1) := by
  fun_induction literalBody r with
  | case1 => exact .nil
  | case2 r => exact .nil
  | case3 => exact .backslash (by simp) .nil
  | case4 c r hc ih =>
    obtain ⟨d, hd⟩ := Option.isSome_iff_exists.1 hc
    rw [unescape, hd]
    exact .pair (mem_literalEscapes_iff.2 hd) ih
  | case5 c r hc ih =>
    have hnone : escaped? c = none := by simpa using hc
    have hhead : ((literalBody (c :: r)).1 ++ (literalBody (c :: r)).2).head? = some c := by
      rw [literalBody_append_eq]
      rfl
    have hnext : ∀ e ∈ ((literalBody (c :: r)).1 ++ (literalBody (c :: r)).2).head?, escaped? e = none := by
      rw [hhead]
      rintro e ⟨⟩
      exact hnone
    have hbody : ∀ e ∈ (literalBody (c :: r)).1.head?, escaped? e = none := by
      intro e he
      apply hnext
      rw [List.head?_append, he]
      rfl
    rw [unescape_backslash hbody rfl]
    refine .backslash (fun e he d hd => ?_) ih
    rw [mem_literalEscapes_iff, hnext e he] at hd
    cases hd
  | case6 c r hquote hlone hescape ih =>
    have hbackslash := ne_backslash hlone hescape
    have hun : unescape (c :: (literalBody r).1) = c :: unescape (literalBody r).1 := by
      rw [unescape]
      all_goals simp_all
    rw [hun]
    exact .itself hquote hbackslash ih

/-- What the grammar takes for the body of a literal, the lexer does too. -/
theorem literalBody_of_decodes {after body text : List Char} (h : Decodes after body text)
    (hend : after = [] ∨ ∃ r, after = '"' :: r) :
    literalBody (body ++ after) = (body, after) ∧ unescape body = text := by
  induction h with
  | nil => rcases hend with rfl | ⟨r, rfl⟩ <;> exact ⟨rfl, rfl⟩
  | @pair e c cs text he h ih =>
    obtain ⟨hbody, htext⟩ := ih
    have hc := escaped?_of_mem he
    refine ⟨?_, by rw [unescape, hc, htext]⟩
    rw [List.cons_append, List.cons_append, literalBody, if_pos (by rw [hc]; rfl), hbody]
  | @backslash cs text hnext h ih =>
    obtain ⟨hbody, htext⟩ := ih
    have hnone : ∀ e ∈ (cs ++ after).head?, escaped? e = none := by
      intro e he
      rw [← Option.not_isSome_iff_eq_none, Option.isSome_iff_exists]
      rintro ⟨c, hc⟩
      exact hnext e he c (mem_literalEscapes_iff.2 hc)
    have htail : ∀ e ∈ cs.head?, escaped? e = none := by
      intro e he
      apply hnone
      rw [List.head?_append, he]
      rfl
    refine ⟨?_, unescape_backslash htail htext⟩
    rw [List.cons_append]
    cases hrest : cs ++ after with
    | nil =>
      obtain ⟨rfl, rfl⟩ := List.append_eq_nil_iff.1 hrest
      rfl
    | cons c r =>
      have hc := hnone c (by rw [hrest]; rfl)
      rw [literalBody, if_neg (by rw [hc]; exact Bool.false_ne_true), ← hrest, hbody]
  | @itself c cs text hquote hbackslash h ih =>
    obtain ⟨hbody, htext⟩ := ih
    refine ⟨by rw [List.cons_append, literalBody_of_ne hquote hbackslash, hbody], ?_⟩
    rw [unescape]
    all_goals simp_all

/-! ## Words -/

theorem toUpper_toUpper (c : Char) : c.toUpper.toUpper = c.toUpper := by
  -- No letter in upper case is in the range of letters that change.
  have hrange : ¬ ('a'.val ≤ c.toUpper.val ∧ c.toUpper.val ≤ 'z'.val) := by
    by_cases h : 'a'.val ≤ c.val ∧ c.val ≤ 'z'.val
    · have hupper : c.toUpper = _ := dif_pos h
      rw [hupper]
      grind [UInt32.toNat_add]
    · have hsame : c.toUpper = c := dif_neg h
      rwa [hsame]
  exact dif_neg hrange

theorem wordKind_of_not_spellsKeyword {word : List Char} (h : ∀ k, ¬ SpellsKeyword k word) :
    wordKind word = .invalid (String.ofList (word.map Char.toUpper)) := by
  have hnone : Keyword.ofWord? (String.ofList (word.map Char.toUpper)) = none := by
    rw [Keyword.ofWord?, List.find?_eq_none]
    intro k _ hk
    apply h k
    have hname := congrArg String.toList (beq_iff_eq.1 hk)
    simp only [String.toList_map, String.toList_ofList, List.map_map] at hname
    rw [SpellsKeyword, hname]
    exact List.map_congr_left fun c _ => (toUpper_toUpper c).symm
  rw [wordKind, hnone]

theorem wordKind_congr {word other : List Char} (h : word.map Char.toUpper = other.map Char.toUpper) :
    wordKind word = wordKind other := by
  rw [wordKind, wordKind, h]

/-! ## Pieces -/

theorem stops_dropWhile (p : Char → Bool) (r : List Char) : Stops p (r.dropWhile p) := by
  intro c hc
  have h := List.head?_dropWhile_not p r
  rw [hc] at h
  exact h

theorem literalBody_rest (r : List Char) : (literalBody r).2 = [] ∨ ∃ rest, (literalBody r).2 = '"' :: rest := by
  fun_induction literalBody r <;> simp_all

theorem isPiece_literal (r : List Char) : IsPiece (literal r).2 (literal r).1 := by
  have hbody := decodes_literalBody r
  unfold literal
  rcases literalBody_rest r with hrest | ⟨rest, hrest⟩
  · rw [hrest] at hbody ⊢
    exact .openLiteral rfl hbody
  · rw [hrest] at hbody ⊢
    exact .literal hbody

theorem isPiece_number {c : Char} (hc : c.isDigit = true) (r : List Char) :
    IsPiece (r.dropWhile Char.isDigit) ⟨c :: r.takeWhile Char.isDigit,
      some (.number (Numeral.saturated 10 numberCeiling (c :: r.takeWhile Char.isDigit)))⟩ := by
  have hds : ∀ d ∈ c :: r.takeWhile Char.isDigit, d.isDigit = true :=
    List.forall_mem_cons.2 ⟨hc, fun d hd => List.mem_takeWhile_imp hd⟩
  rw [Numeral.saturated_eq_min (by omega)]
  exact .number (List.cons_ne_nil _ _) hds (stops_dropWhile Char.isDigit r)

theorem isPiece_word {c : Char} (hc : c.isAlpha = true) (r : List Char) :
    IsPiece (r.dropWhile Char.isAlphanum) ⟨c :: r.takeWhile Char.isAlphanum,
      some (wordKind (c :: r.takeWhile Char.isAlphanum))⟩ := by
  have hcs : ∀ d ∈ r.takeWhile Char.isAlphanum, d.isAlphanum = true := fun d hd => List.mem_takeWhile_imp hd
  have hend := stops_dropWhile Char.isAlphanum r
  by_cases hk : ∃ k, SpellsKeyword k (c :: r.takeWhile Char.isAlphanum)
  · obtain ⟨k, hk⟩ := hk
    rw [wordKind_of_spellsKeyword hk]
    exact .keyword hc hcs hend hk
  · have hnone : ∀ k, ¬ SpellsKeyword k (c :: r.takeWhile Char.isAlphanum) := fun k h => hk ⟨k, h⟩
    rw [wordKind_of_not_spellsKeyword hnone]
    exact .strangeWord hc hcs hend hnone

/-- What the lexer cuts off is a piece. -/
theorem isPiece_next (c : Char) (r : List Char) : IsPiece (next c r).2 (next c r).1 := by
  unfold next
  split
  case isTrue hline =>
    subst hline
    exact .lineFeed
  case isFalse hline =>
  split
  case isTrue hblank => exact .blank (by simpa [isBlank] using hblank)
  case isFalse hblank =>
  split
  case isTrue hquote => exact isPiece_literal r
  case isFalse hquote =>
  split
  case isTrue hdigit => exact isPiece_number hdigit r
  case isFalse hdigit =>
  split
  case isTrue hletter => exact isPiece_word hletter r
  case isFalse hletter =>
    exact .other (by simpa [isBlank] using hblank) hline hquote (by simpa using hdigit) (by simpa using hletter)

/-- The lexer cuts off what the grammar takes for a piece. -/
theorem next_of_isPiece {l : Lexeme} {r : List Char} (h : IsPiece r l) :
    ∃ c cs, l.source = c :: cs ∧ next c (cs ++ r) = (l, r) := by
  cases h with
  | @blank c h => exact ⟨c, [], rfl, by rcases h with rfl | rfl | rfl <;> rfl⟩
  | lineFeed => exact ⟨_, _, rfl, rfl⟩
  | @literal body text h =>
    obtain ⟨hbody, htext⟩ := literalBody_of_decodes h (.inr ⟨r, rfl⟩)
    refine ⟨_, _, rfl, ?_⟩
    show literal (body ++ ['"'] ++ r) = _
    rw [List.append_assoc, List.singleton_append, literal, hbody, htext]
  | @openLiteral body text hend h =>
    obtain ⟨hbody, htext⟩ := literalBody_of_decodes h (.inl rfl)
    subst hend
    refine ⟨_, _, rfl, ?_⟩
    show literal (body ++ []) = _
    rw [literal, hbody, htext]
  | @number ds hne hds hend =>
    obtain ⟨d, ds, rfl⟩ := List.exists_cons_of_ne_nil hne
    exact ⟨d, ds, rfl, next_number hds hend⟩
  | @keyword c cs hc hcs hend k hk => exact ⟨c, cs, rfl, next_keyword hk hend⟩
  | @strangeWord c cs hc hcs hend hk =>
    exact ⟨c, cs, rfl, by rw [next_word hc hcs hend, wordKind_of_not_spellsKeyword hk]⟩
  | @other c hblank hline hquote hdigit hletter =>
    have hb : isBlank c = false := by simp [isBlank, hblank]
    refine ⟨c, [], rfl, ?_⟩
    rw [next, if_neg hline, hb, if_neg Bool.false_ne_true, if_neg hquote, hdigit, if_neg Bool.false_ne_true, hletter,
      if_neg Bool.false_ne_true]
    rfl

/-! ## Cutting -/

theorem cut_lexemes (cs : List Char) : Cut cs (lexemes cs) := by
  fun_induction lexemes cs with
  | case1 => exact .nil
  | case2 c r ih =>
    have h := Cut.cons (isPiece_next c r) ih
    rw [source_next] at h
    exact h

theorem eq_lexemes_of_cut {cs : List Char} {ls : List Lexeme} (h : Cut cs ls) : ls = lexemes cs := by
  induction h with
  | nil => rw [lexemes]
  | @cons l ls r h hs ih =>
    obtain ⟨c, cs, hsource, hnext⟩ := next_of_isPiece h
    rw [hsource, List.cons_append, lexemes, hnext, ih]

/-! ## Kinds and places -/

theorem map_kind_locate (p : Position) (ls : List Lexeme) :
    (locate p ls).map Token.kind = ls.filterMap Lexeme.kind? ++ [.endOfInput] := by
  induction ls generalizing p with
  | nil => rfl
  | cons l ls ih =>
    rw [locate, List.filterMap_cons]
    cases l.kind? with
    | none => exact ih _
    | some k => simp [ih]

theorem getElem?_locate (p : Position) (before : List Lexeme) {l : Lexeme} {k : Token.Kind} (hl : l.kind? = some k)
    (after : List Lexeme) :
    (locate p (before ++ l :: after))[(before.filterMap Lexeme.kind?).length]? =
      some ⟨k, (before.flatMap Lexeme.source).foldl Position.advance p⟩ := by
  have hlength : (locate p before).dropLast.length = (before.filterMap Lexeme.kind?).length := by
    have h := congrArg List.length (map_kind_locate p before)
    simp only [List.length_map, List.length_append, List.length_singleton] at h
    rw [List.length_dropLast, h, Nat.add_sub_cancel]
  rw [locate_append, ← hlength, List.getElem?_append_right (Nat.le_refl _), Nat.sub_self, locate, hl]
  rfl

/-! ## The cases of words -/

/-- A piece is one by itself, too. -/
theorem isPiece_alone {after : List Char} {l : Lexeme} (h : IsPiece after l) : IsPiece [] l := by
  cases h with
  | blank h => exact .blank h
  | lineFeed => exact .lineFeed
  | literal h => exact .literal (.congr (by simp) h)
  | openLiteral hend h => exact .openLiteral rfl h
  | number hne hds hend => exact .number hne hds (by simp)
  | keyword hc hcs hend hk => exact .keyword hc hcs (by simp) hk
  | strangeWord hc hcs hend hk => exact .strangeWord hc hcs (by simp) hk
  | other hblank hline hquote hdigit hletter => exact .other hblank hline hquote hdigit hletter

theorem kind?_of_isWord {after : List Char} {l : Lexeme} (h : IsPiece after l) (hl : l.IsWord) :
    l.kind? = some (wordKind l.source) := by
  obtain ⟨c, hc, hletter⟩ := hl
  cases h with
  | blank h => cases hc; rcases h with rfl | rfl | rfl <;> cases hletter
  | lineFeed | literal | openLiteral => cases hc; cases hletter
  | @number ds hne hds hend =>
    have hdigit := hds c (List.mem_of_mem_head? hc)
    rw [isDigit_of_isAlpha hletter] at hdigit
    cases hdigit
  | keyword _ _ _ hk => exact congrArg some (wordKind_of_spellsKeyword hk).symm
  | strangeWord _ _ _ hk => exact congrArg some (wordKind_of_not_spellsKeyword hk).symm
  | other hblank hline hquote hdigit hother =>
    cases hc
    rw [hletter] at hother
    cases hother

theorem kind?_of_alike {after other : List Char} {l m : Lexeme} (hl : IsPiece after l) (hm : IsPiece other m)
    (h : l.Alike m) : l.kind? = m.kind? := by
  rcases h with hsource | ⟨hword, hword', hupper⟩
  · have hcut := eq_lexemes_of_cut (.cons (isPiece_alone hl) .nil)
    rw [hsource, ← eq_lexemes_of_cut (.cons (isPiece_alone hm) .nil)] at hcut
    rw [(List.cons.inj hcut).1]
  · rw [kind?_of_isWord hl hword, kind?_of_isWord hm hword', wordKind_congr hupper]

theorem exists_isPiece_of_mem {cs : List Char} {ls : List Lexeme} (h : Cut cs ls) {l : Lexeme} (hl : l ∈ ls) :
    ∃ after, IsPiece after l := by
  induction h with
  | nil => cases hl
  | cons h hs ih =>
    rcases List.mem_cons.1 hl with rfl | hl
    · exact ⟨_, h⟩
    · exact ih hl

theorem filterMap_kind?_filter (ls : List Lexeme) :
    (ls.filter Lexeme.isToken).filterMap Lexeme.kind? = ls.filterMap Lexeme.kind? := by
  rw [List.filterMap_filter]
  congr 1
  funext l
  unfold Lexeme.isToken
  cases l.kind? <;> rfl

theorem filterMap_kind?_of_alike {cs ds : List Char} {ls ms : List Lexeme} (hls : Cut cs ls) (hms : Cut ds ms)
    (h : List.Forall₂ Lexeme.Alike (ls.filter Lexeme.isToken) (ms.filter Lexeme.isToken)) :
    ls.filterMap Lexeme.kind? = ms.filterMap Lexeme.kind? := by
  have hkinds : ∀ xs ys, List.Forall₂ Lexeme.Alike xs ys → (∀ x ∈ xs, x ∈ ls) → (∀ y ∈ ys, y ∈ ms) →
      xs.filterMap Lexeme.kind? = ys.filterMap Lexeme.kind? := by
    intro xs ys hxy hxs hys
    induction hxy with
    | nil => rfl
    | cons halike _ ih =>
      obtain ⟨hx, hxs⟩ := List.forall_mem_cons.1 hxs
      obtain ⟨hy, hys⟩ := List.forall_mem_cons.1 hys
      obtain ⟨after, hx⟩ := exists_isPiece_of_mem hls hx
      obtain ⟨other, hy⟩ := exists_isPiece_of_mem hms hy
      rw [List.filterMap_cons, List.filterMap_cons, kind?_of_alike hx hy halike, ih hxs hys]
  have hfilter := hkinds _ _ h (fun x hx => List.mem_of_mem_filter hx) (fun y hy => List.mem_of_mem_filter hy)
  rw [filterMap_kind?_filter, filterMap_kind?_filter] at hfilter
  exact hfilter

end Lexer

open Lexer

/-- A script is cut into pieces in exactly one way. Its tokens are those of the pieces, each where its piece
begins, and then the end of input and no other. Another script with the same pieces, blanks and the cases of
words apart, has tokens of the same kinds. -/
theorem tokenize_pieces (script : String) :
    ∃ ls, Cut script.toList ls ∧ (∀ ms, Cut script.toList ms → ms = ls) ∧
      ls.flatMap Lexeme.source = script.toList ∧ (∀ l ∈ ls, l.source ≠ []) ∧
      (tokenize script).map Token.kind = ls.filterMap Lexeme.kind? ++ [.endOfInput] ∧
      .endOfInput ∉ ls.filterMap Lexeme.kind? ∧
      (∀ before l after k, ls = before ++ l :: after → l.kind? = some k →
        (tokenize script)[(before.filterMap Lexeme.kind?).length]? =
          some ⟨k, (before.flatMap Lexeme.source).foldl Position.advance .start⟩) ∧
      ∀ (other : String) (ms : List Lexeme), Cut other.toList ms →
        List.Forall₂ Lexeme.Alike (ls.filter Lexeme.isToken) (ms.filter Lexeme.isToken) →
        (tokenize other).map Token.kind = (tokenize script).map Token.kind := by
  have hcut := cut_lexemes script.toList
  refine ⟨lexemes script.toList, hcut, fun ms hms => eq_lexemes_of_cut hms, flatMap_source_lexemes _, ?_,
    map_kind_locate _ _, ?_, ?_, ?_⟩
  · intro l hl hnil
    obtain ⟨after, hpiece⟩ := exists_isPiece_of_mem hcut hl
    obtain ⟨c, cs, hsource, -⟩ := next_of_isPiece hpiece
    rw [hsource] at hnil
    cases hnil
  · intro hmem
    obtain ⟨l, hl, hkind⟩ := List.mem_filterMap.1 hmem
    exact kind?_ne_end hl hkind
  · intro before l after k hls hk
    rw [tokenize, hls]
    exact getElem?_locate .start before hk after
  · intro other ms hms halike
    rw [tokenize, tokenize, map_kind_locate, map_kind_locate, ← eq_lexemes_of_cut hms,
      filterMap_kind?_of_alike hcut hms halike]

end ScriptedModel.Script
