/-
Printed scripts, as a relation between statements and what spells them: keywords in any mixture of
cases, numbers with any number of leading zeros, characters of a text by themselves or escaped, and
blanks and line feeds wherever they may stand.

Main statement: reading a printed script gives back its statements, and nothing to remark on. Every
piece of it is one lexeme, since no word or number touches the next.
-/
import ScriptedModel.Proofs.Script.Settings
import ScriptedModel.Proofs.Text.Numeral

namespace ScriptedModel.Script

/-! ## Spellings -/

/-- An operand of a statement. -/
inductive Operand
  | text (text : String)
  | number (value : Nat)
  deriving DecidableEq, Repr

namespace Statement

/-- The keyword of a statement. -/
def keyword : Statement → Keyword
  | .say _ => .say
  | .toolCall _ _ => .toolCall
  | .chunkSize _ => .chunkSize
  | .chunkLatency _ => .chunkLatency
  | .randomLatency _ _ => .randomLatency

/-- The operands of a statement. -/
def operands : Statement → List Operand
  | .say content => [.text content]
  | .toolCall toolName arguments => [.text toolName, .text arguments]
  | .chunkSize size => [.number size]
  | .chunkLatency ms => [.number ms]
  | .randomLatency low high => [.number low, .number high]

/-- Whether the numbers of a statement are within the bounds of the language. -/
def InBounds : Statement → Prop
  | .chunkSize size => size ≤ 1000
  | .chunkLatency ms => ms ≤ 10000
  | .randomLatency low high => low ≤ high ∧ high ≤ 10000
  | .say _ => True
  | .toolCall _ _ => True

/-- A statement with its numbers brought within the bounds of the language, and its range in order. -/
def bounded : Statement → Statement
  | .chunkSize size => .chunkSize (min size 1000)
  | .chunkLatency ms => .chunkLatency (min ms 10000)
  | .randomLatency a b =>
    .randomLatency (min (min a 10000) (min b 10000)) (max (min a 10000) (min b 10000))
  | st => st

end Statement

/-- Whether a text spells a keyword, in any mixture of cases. -/
def SpellsKeyword (k : Keyword) (cs : List Char) : Prop := cs.map Char.toUpper = k.name.toList

instance (k : Keyword) (cs : List Char) : Decidable (SpellsKeyword k cs) := inferInstanceAs (Decidable (_ = _))

/-- The letters that may follow a backslash in a literal, with what they stand for. -/
def literalEscapes : List (Char × Char) := [('"', '"'), ('\\', '\\'), ('n', '\n'), ('t', '\t')]

/-- The spellings of a text inside a literal. -/
inductive SpellsText : List Char → List Char → Prop
  | nil : SpellsText [] []
  | itself {c : Char} {text cs : List Char} (hquote : c ≠ '"') (hbackslash : c ≠ '\\') (h : SpellsText text cs) :
    SpellsText (c :: text) (c :: cs)
  | escaped {e c : Char} {text cs : List Char} (he : (e, c) ∈ literalEscapes) (h : SpellsText text cs) :
    SpellsText (c :: text) ('\\' :: e :: cs)

/-- The spellings of an operand. -/
inductive SpellsOperand : Operand → List Char → Prop
  | text {s : String} {cs : List Char} (h : SpellsText s.toList cs) : SpellsOperand (.text s) ('"' :: (cs ++ ['"']))
  | number {ds : List Char} (hne : ds ≠ []) (h : ∀ d ∈ ds, d.isDigit = true) :
    SpellsOperand (.number (Numeral.value 10 ds)) ds

/-- Whether a text separates the items of a statement. -/
def IsGap (cs : List Char) : Prop := cs ≠ [] ∧ ∀ c ∈ cs, c = ' ' ∨ c = '\t' ∨ c = '\r'

-- The instance for characters in general would go through all of them.
instance (cs : List Char) : Decidable (IsGap cs) :=
  @instDecidableAnd _ _ inferInstance (List.decidableBAll _ cs)

/-- Whether a text may stand between statements. -/
def IsSeparator (cs : List Char) : Prop := ∀ c ∈ cs, c = '\n' ∨ c = ' ' ∨ c = '\t' ∨ c = '\r'

instance (cs : List Char) : Decidable (IsSeparator cs) := List.decidableBAll _ cs

/-- The spellings of operands, each after a gap. -/
inductive SpellsOperands : List Operand → List Char → Prop
  | nil : SpellsOperands [] []
  | cons {o : Operand} {os : List Operand} {gap cs ds : List Char} (hg : IsGap gap) (h : SpellsOperand o cs)
    (hs : SpellsOperands os ds) : SpellsOperands (o :: os) (gap ++ (cs ++ ds))

/-- The spellings of a list of statements: something separates each from the next, and separators may
stand before the first and after the last. -/
inductive Prints : List Statement → List Char → Prop
  | nil {cs : List Char} (h : IsSeparator cs) : Prints [] cs
  | cons {st : Statement} {ss : List Statement} {before word cs rest : List Char} (hb : IsSeparator before)
    (hw : SpellsKeyword st.keyword word) (h : SpellsOperands st.operands cs) (hr : IsSeparator (rest.take 1))
    (hs : Prints ss rest) : Prints (st :: ss) (before ++ (word ++ (cs ++ rest)))

/-! ## Lexemes -/

namespace Lexer

/-- Whether a text does not go on with a character of a class. -/
def Stops (p : Char → Bool) (r : List Char) : Prop := ∀ c ∈ r.head?, p c = false

theorem takeWhile_append {p : Char → Bool} {ds r : List Char} (hds : ∀ d ∈ ds, p d = true) (hr : Stops p r) :
    (ds ++ r).takeWhile p = ds ∧ (ds ++ r).dropWhile p = r := by
  rw [List.takeWhile_append_of_pos hds, List.dropWhile_append_of_pos hds]
  rcases r with _ | ⟨c, r⟩
  · exact ⟨List.append_nil ds, rfl⟩
  · have hc := hr c rfl
    rw [List.takeWhile_cons_of_neg (by rw [hc]; exact Bool.false_ne_true),
      List.dropWhile_cons_of_neg (by rw [hc]; exact Bool.false_ne_true)]
    exact ⟨List.append_nil ds, rfl⟩

theorem escaped?_of_mem {e c : Char} (h : (e, c) ∈ literalEscapes) : escaped? e = some c := by
  simp only [literalEscapes, List.mem_cons, Prod.mk.injEq, List.not_mem_nil, or_false] at h
  rcases h with ⟨rfl, rfl⟩ | ⟨rfl, rfl⟩ | ⟨rfl, rfl⟩ | ⟨rfl, rfl⟩ <;> rfl

theorem literalBody_spells {text cs : List Char} (h : SpellsText text cs) (r : List Char) :
    literalBody (cs ++ '"' :: r) = (cs, '"' :: r) := by
  induction h with
  | nil => rw [List.nil_append, literalBody]
  | @itself c text cs hquote hbackslash h ih =>
    rw [List.cons_append, literalBody]
    · rw [ih]
    all_goals simp_all
  | @escaped e c text cs he h ih =>
    rw [List.cons_append, List.cons_append, literalBody]
    · rw [if_pos (by rw [escaped?_of_mem he]; rfl), ih]

theorem unescape_spells {text cs : List Char} (h : SpellsText text cs) : unescape cs = text := by
  induction h with
  | nil => rfl
  | @itself c text cs hquote hbackslash h ih =>
    rw [unescape]
    · rw [ih]
    all_goals simp_all
  | @escaped e c text cs he h ih =>
    rw [unescape, escaped?_of_mem he]
    simp only [ih]

theorem next_literal {text : String} {cs : List Char} (h : SpellsText text.toList cs) (r : List Char) :
    next '"' (cs ++ '"' :: r) = (⟨'"' :: (cs ++ ['"']), some (.string text)⟩, r) := by
  show literal (cs ++ '"' :: r) = _
  rw [literal, literalBody_spells h, unescape_spells h]
  simp only [String.ofList_toList]

theorem next_number {d : Char} {ds r : List Char} (h : ∀ x ∈ d :: ds, x.isDigit = true) (hr : Stops Char.isDigit r) :
    next d (ds ++ r) = (⟨d :: ds, some (.number (min (Numeral.value 10 (d :: ds)) numberCeiling))⟩, r) := by
  have hd := h d List.mem_cons_self
  have hne : ∀ c : Char, c.isDigit = false → d ≠ c := by
    rintro c hc rfl
    rw [hd] at hc
    cases hc
  -- The digits are all taken, since the next character is none.
  obtain ⟨htake, hdrop⟩ := takeWhile_append (fun x hx => h x (List.mem_cons_of_mem d hx)) hr
  have hblank : isBlank d = false := by
    simp only [isBlank, hne ' ' rfl, hne '\t' rfl, hne '\r' rfl, or_self, decide_false]
  rw [next, if_neg (hne '\n' rfl), hblank, if_neg Bool.false_ne_true, if_neg (hne '"' rfl), if_pos hd, htake, hdrop]
  simp only [Numeral.saturated_eq_min (by omega : 1 ≤ 10)]

/-! ### Words -/

theorem isDigit_of_isAlpha {c : Char} (h : c.isAlpha = true) : c.isDigit = false := by
  have hA : 'A'.val.toNat = 65 := rfl
  have ha : 'a'.val.toNat = 97 := rfl
  have h9 : '9'.val.toNat = 57 := rfl
  have hletter : (decide (c.val ≥ 'A'.val ∧ c.val ≤ 'Z'.val) ||
      decide (c.val ≥ 'a'.val) && decide (c.val ≤ 'z'.val)) = true := h
  simp only [Bool.or_eq_true, Bool.and_eq_true, decide_eq_true_eq, ge_iff_le, UInt32.le_iff_toNat_le] at hletter
  simp only [Char.isDigit, Bool.and_eq_false_iff, decide_eq_false_iff_not, ge_iff_le, UInt32.le_iff_toNat_le]
  omega

theorem isAlpha_of_toUpper {c : Char} (h : c.toUpper.isUpper = true) : c.isAlpha = true := by
  unfold Char.toUpper at h
  split at h
  · rename_i hc
    show (c.isUpper || decide (c.val ≥ 'a'.val) && decide (c.val ≤ 'z'.val)) = true
    rw [Bool.or_eq_true, Bool.and_eq_true, decide_eq_true_iff, decide_eq_true_iff]
    exact .inr hc
  · show (c.isUpper || c.isLower) = true
    rw [h, Bool.true_or]

theorem isAlpha_of_spellsKeyword {k : Keyword} {word : List Char} (h : SpellsKeyword k word) :
    word ≠ [] ∧ ∀ c ∈ word, c.isAlpha = true := by
  have hname : k.name.toList ≠ [] ∧ k.name.toList.all Char.isUpper = true := by
    cases k <;> decide
  refine ⟨?_, fun c hc => ?_⟩
  · rintro rfl
    exact hname.1 h.symm
  · have hmem := List.mem_map_of_mem (f := Char.toUpper) hc
    rw [h] at hmem
    exact isAlpha_of_toUpper (List.all_eq_true.1 hname.2 _ hmem)

theorem wordKind_of_spellsKeyword {k : Keyword} {word : List Char} (h : SpellsKeyword k word) :
    wordKind word = .keyword k := by
  have hupper : k.name.map Char.toUpper = k.name := by
    rw [← String.toList_inj, String.toList_map]
    cases k <;> decide
  have hword : Keyword.ofWord? k.name = some k := by
    rw [Keyword.ofWord?, hupper]
    cases k <;> rfl
  rw [wordKind, h, String.ofList_toList, hword]

theorem next_word {c : Char} {word r : List Char} (hc : c.isAlpha = true) (h : ∀ x ∈ word, x.isAlphanum = true)
    (hr : Stops Char.isAlphanum r) : next c (word ++ r) = (⟨c :: word, some (wordKind (c :: word))⟩, r) := by
  have hne : ∀ d : Char, d.isAlpha = false → c ≠ d := by
    rintro d hd rfl
    rw [hc] at hd
    cases hd
  have hdigit := isDigit_of_isAlpha hc
  obtain ⟨htake, hdrop⟩ := takeWhile_append h hr
  have hblank : isBlank c = false := by
    simp only [isBlank, hne ' ' rfl, hne '\t' rfl, hne '\r' rfl, or_self, decide_false]
  rw [next, if_neg (hne '\n' rfl), hblank, if_neg Bool.false_ne_true, if_neg (hne '"' rfl), hdigit,
    if_neg Bool.false_ne_true, if_pos hc, htake, hdrop]

theorem next_keyword {k : Keyword} {c : Char} {word r : List Char} (h : SpellsKeyword k (c :: word))
    (hr : Stops Char.isAlphanum r) : next c (word ++ r) = (⟨c :: word, some (.keyword k)⟩, r) := by
  obtain ⟨-, halpha⟩ := isAlpha_of_spellsKeyword h
  have halnum : ∀ x ∈ word, x.isAlphanum = true := fun x hx => by
    rw [Char.isAlphanum, halpha x (List.mem_cons_of_mem c hx), Bool.true_or]
  rw [next_word (halpha c List.mem_cons_self) halnum hr, wordKind_of_spellsKeyword h]

end Lexer

/-! ## Reading -/

namespace Parser

open Lexer

/-- The kind of token that an operand is read as. -/
def operandKind : Operand → Token.Kind
  | .text s => .string s
  | .number n => .number (min n numberCeiling)

/-- What is remarked on a statement that is read: the warnings about its numbers, as tokens hold them. -/
def remarksOn (st : Statement) : List Entry :=
  (st.keyword.params.zip st.operands).flatMap fun x =>
    (st.keyword.warning? x.1 (operandKind x.2)).toList.map .remark

theorem remarksOn_one {st : Statement} {param : Param} {o : Operand} (hparams : st.keyword.params = [param])
    (hoperands : st.operands = [o]) :
    remarksOn st = (st.keyword.warning? param (operandKind o)).toList.map .remark := by
  simp [remarksOn, hparams, hoperands]

theorem remarksOn_two {st : Statement} {param₁ param₂ : Param} {o₁ o₂ : Operand}
    (hparams : st.keyword.params = [param₁, param₂]) (hoperands : st.operands = [o₁, o₂]) :
    remarksOn st = (st.keyword.warning? param₁ (operandKind o₁)).toList.map .remark ++
      (st.keyword.warning? param₂ (operandKind o₂)).toList.map .remark := by
  simp [remarksOn, hparams, hoperands]

/-- The entries of a statement that is read. -/
def entriesOf (st : Statement) : List Entry := remarksOn st ++ [.statement st.bounded]

/-- What the parser reads of a text that stands at a place. -/
def readAt (s : State) (p : Position) (cs : List Char) : Reading := read s (locate p (lexemes cs))

theorem readAt_blank (s : State) (p : Position) {c : Char} (hc : c = ' ' ∨ c = '\t' ∨ c = '\r') (r : List Char) :
    readAt s p (c :: r) = readAt s (p.advance c) r := by
  have hnext : next c r = (⟨[c], none⟩, r) := by
    rcases hc with rfl | rfl | rfl <;> rfl
  rw [readAt, lexemes, hnext]
  rfl

theorem exists_readAt_gap (s : State) (p : Position) {gap : List Char}
    (h : ∀ c ∈ gap, c = ' ' ∨ c = '\t' ∨ c = '\r') (r : List Char) :
    ∃ p', readAt s p (gap ++ r) = readAt s p' r := by
  induction gap generalizing p with
  | nil => exact ⟨p, rfl⟩
  | cons c gap ih =>
    rw [List.cons_append, readAt_blank s p (h c List.mem_cons_self)]
    exact ih _ fun x hx => h x (List.mem_cons_of_mem c hx)

theorem exists_readAt_separator (p : Position) {cs : List Char} (h : IsSeparator cs) (r : List Char) :
    ∃ p', readAt .idle p (cs ++ r) = readAt .idle p' r := by
  induction cs generalizing p with
  | nil => exact ⟨p, rfl⟩
  | cons c cs ih =>
    have hcs : IsSeparator cs := fun x hx => h x (List.mem_cons_of_mem c hx)
    -- A line feed is a token that is passed over, a blank is none at all.
    rcases h c List.mem_cons_self with rfl | hc
    · have hline : readAt .idle p ('\n' :: (cs ++ r)) = readAt .idle (p.advance '\n') (cs ++ r) := by
        rw [readAt, lexemes]
        rfl
      rw [List.cons_append, hline]
      exact ih _ hcs
    · rw [List.cons_append, readAt_blank .idle p hc]
      exact ih _ hcs

theorem exists_readAt_keyword (p : Position) {k : Keyword} {word : List Char} (h : SpellsKeyword k word)
    {r : List Char} (hr : Stops Char.isAlphanum r) :
    ∃ p', readAt .idle p (word ++ r) = readAt (.reading p (.ofKeyword k)) p' r := by
  obtain ⟨c, word, rfl⟩ := List.exists_cons_of_ne_nil (isAlpha_of_spellsKeyword h).1
  refine ⟨(c :: word).foldl Position.advance p, ?_⟩
  rw [readAt, List.cons_append, lexemes, next_keyword h hr]
  rfl

theorem exists_locate_operand (p : Position) {o : Operand} {cs : List Char} (h : SpellsOperand o cs) {r : List Char}
    (hr : Stops Char.isDigit r) :
    ∃ p', locate p (lexemes (cs ++ r)) = ⟨operandKind o, p⟩ :: locate p' (lexemes r) := by
  cases h with
  | @text s cs h =>
    refine ⟨('"' :: (cs ++ ['"'])).foldl Position.advance p, ?_⟩
    rw [List.cons_append, List.append_assoc, List.singleton_append, lexemes, next_literal h]
    rfl
  | number hne h =>
    obtain ⟨d, ds, rfl⟩ := List.exists_cons_of_ne_nil hne
    refine ⟨(d :: ds).foldl Position.advance p, ?_⟩
    rw [List.cons_append, lexemes, next_number h hr]
    rfl

section Operand

variable (p q : Position) {w w' : Pending} {st : Statement} {o : Operand} {cs : List Char} (h : SpellsOperand o cs)
  {r : List Char} (hr : Stops Char.isDigit r) {es : List Entry}

include h hr

theorem exists_readAt_pending (ht : w.take (operandKind o) = some (.pending w', es)) :
    ∃ p', readAt (.reading q w) p (cs ++ r) = (readAt (.reading q w') p' r).after es := by
  obtain ⟨p', hp⟩ := exists_locate_operand p h hr
  refine ⟨p', ?_⟩
  rw [readAt, hp]
  cases o <;> simp only [operandKind] at ht <;> simp only [read, operandKind, ht] <;> rfl

theorem exists_readAt_complete (ht : w.take (operandKind o) = some (.complete st, es)) :
    ∃ p', readAt (.reading q w) p (cs ++ r) = (readAt .idle p' r).after (es ++ [.statement st]) := by
  obtain ⟨p', hp⟩ := exists_locate_operand p h hr
  refine ⟨p', ?_⟩
  rw [readAt, hp]
  cases o <;> simp only [operandKind] at ht <;> simp only [read, operandKind, ht] <;> rfl

end Operand

theorem stops_gap {gap : List Char} (h : IsGap gap) {p : Char → Bool}
    (hp : ∀ c, c = ' ' ∨ c = '\t' ∨ c = '\r' → p c = false) (r : List Char) : Stops p (gap ++ r) := by
  obtain ⟨c, gap, rfl⟩ := List.exists_cons_of_ne_nil h.1
  rintro d hd
  cases hd
  exact hp c (h.2 c List.mem_cons_self)

theorem digit_of_gap (c : Char) (h : c = ' ' ∨ c = '\t' ∨ c = '\r') : c.isDigit = false := by
  rcases h with rfl | rfl | rfl <;> rfl

theorem alphanum_of_gap (c : Char) (h : c = ' ' ∨ c = '\t' ∨ c = '\r') : c.isAlphanum = false := by
  rcases h with rfl | rfl | rfl <;> rfl

section Operands

variable {st : Statement} {w w' : Pending} {o₁ o₂ : Operand} {cs : List Char} (p q : Position) {r : List Char}
  (hr : Stops Char.isDigit r) {es es₁ es₂ : List Entry}

include hr

theorem exists_readAt_one (h : SpellsOperands [o₁] cs) (h₁ : w.take (operandKind o₁) = some (.complete st, es)) :
    ∃ p', readAt (.reading q w) p (cs ++ r) = (readAt .idle p' r).after (es ++ [.statement st]) := by
  cases h with
  | @cons _ _ gap cs ds hg ho hs =>
    cases hs
    rw [List.append_nil, List.append_assoc]
    obtain ⟨p₁, hp₁⟩ := exists_readAt_gap (.reading q w) p hg.2 (cs ++ r)
    obtain ⟨p₂, hp₂⟩ := exists_readAt_complete p₁ q ho hr h₁
    exact ⟨p₂, hp₁.trans hp₂⟩

theorem exists_readAt_two (h : SpellsOperands [o₁, o₂] cs) (h₁ : w.take (operandKind o₁) = some (.pending w', es₁))
    (h₂ : w'.take (operandKind o₂) = some (.complete st, es₂)) :
    ∃ p', readAt (.reading q w) p (cs ++ r) = (readAt .idle p' r).after (es₁ ++ (es₂ ++ [.statement st])) := by
  cases h with
  | @cons _ _ gap cs ds hg ho hs =>
    obtain ⟨p₁, hp₁⟩ := exists_readAt_gap (.reading q w) p hg.2 (cs ++ (ds ++ r))
    -- The gap before the second operand ends the first.
    have hstops : Stops Char.isDigit (ds ++ r) := by
      cases hs with
      | cons hg' ho' hs' =>
        rw [List.append_assoc]
        exact stops_gap hg' digit_of_gap _
    obtain ⟨p₂, hp₂⟩ := exists_readAt_pending p₁ q ho hstops h₁
    obtain ⟨p₃, hp₃⟩ := exists_readAt_one p₂ q hr hs h₂
    refine ⟨p₃, ?_⟩
    rw [List.append_assoc, List.append_assoc, hp₁, hp₂, hp₃, after_after]

end Operands

/-- A bound of the language is not beyond the ceiling of numbers. -/
theorem min_min_numberCeiling (n : Nat) {bound : Nat} (h : bound ≤ 10000) :
    min (min n numberCeiling) bound = min n bound := by
  rw [Nat.min_assoc, Nat.min_eq_right (Nat.le_trans h (by decide))]

/-- A statement is what is read of its operands after its keyword, its numbers within bounds. -/
theorem exists_readAt_operands (st : Statement) {cs : List Char} (h : SpellsOperands st.operands cs)
    (p q : Position) {r : List Char} (hr : Stops Char.isDigit r) :
    ∃ p', readAt (.reading q (.ofKeyword st.keyword)) p (cs ++ r) = (readAt .idle p' r).after (entriesOf st) := by
  cases st with
  | say content => exact exists_readAt_one p q hr h rfl
  | toolCall toolName arguments =>
    have htake : (Pending.ofKeyword .toolCall).take (operandKind (.text toolName)) =
        some (.pending (.toolCallNamed toolName), []) := rfl
    exact exists_readAt_two p q hr h htake rfl
  | chunkSize size =>
    have htake := take_chunkSize (min size numberCeiling)
    rw [min_min_numberCeiling size (by omega)] at htake
    obtain ⟨p', hp⟩ := exists_readAt_one p q hr h htake
    refine ⟨p', hp.trans ?_⟩
    rw [entriesOf, remarksOn_one rfl rfl]
    rfl
  | chunkLatency ms =>
    have htake := take_chunkLatency (min ms numberCeiling)
    rw [min_min_numberCeiling ms (by omega)] at htake
    obtain ⟨p', hp⟩ := exists_readAt_one p q hr h htake
    refine ⟨p', hp.trans ?_⟩
    rw [entriesOf, remarksOn_one rfl rfl]
    rfl
  | randomLatency a b =>
    have htake := take_randomLatency (min a numberCeiling)
    have htake' := take_randomLatencyFrom (min a 10000) (min b numberCeiling)
    rw [min_min_numberCeiling a (by omega)] at htake
    rw [min_min_numberCeiling b (by omega)] at htake'
    obtain ⟨p', hp⟩ := exists_readAt_two p q hr h htake htake'
    refine ⟨p', hp.trans ?_⟩
    rw [entriesOf, remarksOn_two rfl rfl, List.append_assoc]
    rfl

theorem stops_separator {r : List Char} (h : IsSeparator (r.take 1)) : Stops Char.isDigit r := by
  rintro c hc
  obtain ⟨r, rfl⟩ := List.head?_eq_some_iff.1 hc
  rcases h c List.mem_cons_self with rfl | rfl | rfl | rfl <;> rfl

theorem stops_operands {os : List Operand} {cs : List Char} (h : SpellsOperands os cs) (hos : os ≠ [])
    (r : List Char) :
    Stops Char.isAlphanum (cs ++ r) := by
  cases h with
  | nil => exact absurd rfl hos
  | cons hg ho hs =>
    rw [List.append_assoc]
    exact stops_gap hg alphanum_of_gap _

theorem readAt_prints {ss : List Statement} {cs : List Char} (h : Prints ss cs) (p : Position) :
    readAt .idle p cs = ⟨ss.flatMap entriesOf, none⟩ := by
  -- The place where a statement ends is where the next one is read.
  induction h generalizing p with
  | @nil cs h =>
    obtain ⟨p', hp⟩ := exists_readAt_separator p h []
    rw [List.append_nil] at hp
    rw [hp, readAt, lexemes]
    rfl
  | @cons st ss before word cs rest hb hw h hr hs ih =>
    obtain ⟨p₁, hp₁⟩ := exists_readAt_separator p hb (word ++ (cs ++ rest))
    have hos : st.operands ≠ [] := by cases st <;> exact List.cons_ne_nil _ _
    obtain ⟨p₂, hp₂⟩ := exists_readAt_keyword p₁ hw (stops_operands h hos rest)
    obtain ⟨p₃, hp₃⟩ := exists_readAt_operands st h p₂ p₁ (stops_separator hr)
    rw [hp₁, hp₂, hp₃, ih]
    rfl

/-- Within bounds a statement is read as it is, and there is nothing to remark on. -/
theorem entriesOf_of_inBounds {st : Statement} (h : st.InBounds) : entriesOf st = [.statement st] := by
  cases st with
  | say content => rfl
  | toolCall toolName arguments => rfl
  | chunkSize size =>
    have hsize : size ≤ 1000 := h
    have hwarning : Keyword.chunkSize.warning? .size (operandKind (.number size)) = none :=
      warning?_of_le ((Nat.eq_zero_or_pos _).symm.imp_right fun hzero => ⟨rfl, hzero⟩) (by omega)
    rw [entriesOf, remarksOn_one (o := .number size) rfl rfl, Statement.keyword, hwarning, Statement.bounded,
      Nat.min_eq_left hsize]
    rfl
  | chunkLatency ms =>
    have hms : ms ≤ 10000 := h
    have hwarning : Keyword.chunkLatency.warning? .latency (operandKind (.number ms)) = none :=
      warning?_of_le (by omega) (by omega)
    rw [entriesOf, remarksOn_one (o := .number ms) rfl rfl, Statement.keyword, hwarning, Statement.bounded,
      Nat.min_eq_left hms]
    rfl
  | randomLatency low high =>
    -- Neither number is cut, and the range is in order already.
    obtain ⟨hlow, hhigh⟩ : low ≤ high ∧ high ≤ 10000 := h
    have hlow' : low ≤ 10000 := Nat.le_trans hlow hhigh
    have hwarning : Keyword.randomLatency.warning? .minimum (operandKind (.number low)) = none :=
      warning?_of_le (by omega) (by omega)
    have hwarning' : Keyword.randomLatency.warning? .maximum (operandKind (.number high)) = none :=
      warning?_of_le (by omega) (by omega)
    have hoperands : (Statement.randomLatency low high).operands = [.number low, .number high] := rfl
    rw [entriesOf, remarksOn_two rfl hoperands, Statement.keyword, hwarning, hwarning', Statement.bounded,
      Nat.min_eq_left hlow', Nat.min_eq_left hhigh, Nat.min_eq_left hlow, Nat.max_eq_right hlow]
    rfl

end Parser

open ScriptedModel.Script.Parser (entriesOf entriesOf_of_inBounds)

/-- Reading a printed script gives its statements with their numbers within bounds, whatever numbers are
printed, and no fault. -/
theorem readScript_of_prints {ss : List Statement} {script : String} (h : Prints ss script.toList) :
    Parser.readScript script = ⟨ss.flatMap entriesOf, none⟩ :=
  Parser.readAt_prints h .start

theorem statements_flatMap_entriesOf (ss : List Statement) :
    (⟨ss.flatMap entriesOf, none⟩ : Reading).statements = ss.map Statement.bounded := by
  induction ss with
  | nil => rfl
  | cons st ss ih =>
    have hremarks : ∀ e ∈ Parser.remarksOn st, ∃ d, e = .remark d := by
      intro e he
      obtain ⟨x, -, hx⟩ := List.mem_flatMap.1 he
      obtain ⟨d, -, rfl⟩ := List.mem_map.1 hx
      exact ⟨d, rfl⟩
    have hstep := congrArg Prod.fst (Reading.summary_after_statement hremarks st.bounded ⟨ss.flatMap entriesOf, none⟩)
    rw [List.map_cons, ← ih]
    exact hstep

/-- The commands of a printed script are those of its statements with their numbers within bounds. -/
theorem parseScript_eq_bounded {ss : List Statement} {script : String} (h : Prints ss script.toList) :
    parseScript script = .ok (commandsFrom .unset (ss.map Statement.bounded)) := by
  rw [parseScript, readScript_of_prints h, Reading.commands, statements_flatMap_entriesOf]

/-! ### Numbers within bounds -/

theorem flatMap_entriesOf_of_inBounds {ss : List Statement} (hss : ∀ st ∈ ss, st.InBounds) :
    ss.flatMap entriesOf = ss.map .statement := by
  induction ss with
  | nil => rfl
  | cons st ss ih =>
    rw [List.flatMap_cons, entriesOf_of_inBounds (hss st List.mem_cons_self),
      ih fun st' h => hss st' (List.mem_cons_of_mem st h)]
    rfl

theorem bounded_of_inBounds {st : Statement} (h : st.InBounds) : st.bounded = st := by
  have hentries := congrArg List.getLast? (entriesOf_of_inBounds h)
  rw [entriesOf, List.getLast?_concat] at hentries
  exact Entry.statement.inj (Option.some.inj hentries)

theorem parseScript_of_prints {ss : List Statement} {script : String} (h : Prints ss script.toList)
    (hss : ∀ st ∈ ss, st.InBounds) : parseScript script = .ok (commandsFrom .unset ss) := by
  rw [parseScript_eq_bounded h, List.map_congr_left fun st hst => bounded_of_inBounds (hss st hst), List.map_id']

/-- Parsing undoes printing: each statement with an output is a command, under the settings that the
statements before it say, and nothing is remarked on. -/
theorem parseScript_printed {ss : List Statement} (hss : ∀ st ∈ ss, st.InBounds) {script : String}
    (h : Prints ss script.toList) :
    parseScript script = .ok (commandsUnder .unset ss) ∧ (Parser.readScript script).diagnostics = [] := by
  constructor
  · rw [parseScript_of_prints h hss, commandsFrom_eq_commandsUnder]
  · rw [readScript_of_prints h, flatMap_entriesOf_of_inBounds hss, Reading.diagnostics, List.filterMap_map,
      List.filterMap_eq_nil_iff]
    exact fun _ _ => rfl

/-- A text on two lines, with an escaped quote and both spellings of a line feed, between two sizes. -/
theorem parseScript_printed_three :
    let ss : List Statement := [.chunkSize 7, .say "q\"\n\n", .chunkSize 0]
    let script := "cHunkSize \t007 \nsAy\r\"q\\\"\n\\n\" CHUNKSIZE 0\n"
    (∀ st ∈ ss, st.InBounds) ∧ Prints ss script.toList ∧
      parseScript script = .ok [⟨.say "q\"\n\n", ⟨some 7, none, none⟩⟩] ∧
      (Parser.readScript script).diagnostics = [] := by
  intro ss script
  have hss : ∀ st ∈ ss, st.InBounds := by
    simp [ss, Statement.InBounds]
  have htext : SpellsText "q\"\n\n".toList ['q', '\\', '"', '\n', '\\', 'n'] :=
    .itself (by decide) (by decide) (.escaped (by decide) (.itself (by decide) (by decide) (.escaped (by decide) .nil)))
  have hseven : SpellsOperand (.number 7) "007".toList :=
    @SpellsOperand.number ['0', '0', '7'] (by decide) (List.all_eq_true.1 rfl)
  have hzero : SpellsOperand (.number 0) "0".toList := @SpellsOperand.number ['0'] (by decide) (List.all_eq_true.1 rfl)
  have hlast : Prints [.chunkSize 0] " CHUNKSIZE 0\n".toList :=
    @Prints.cons (.chunkSize 0) [] [' '] "CHUNKSIZE".toList _ ['\n'] (by decide) (by decide)
      (@SpellsOperands.cons _ _ [' '] _ _ (by decide) hzero .nil) (by decide) (.nil (by decide))
  have hsecond : Prints [.say "q\"\n\n", .chunkSize 0] " \nsAy\r\"q\\\"\n\\n\" CHUNKSIZE 0\n".toList :=
    @Prints.cons (.say "q\"\n\n") _ " \n".toList "sAy".toList _ _ (by decide) (by decide)
      (@SpellsOperands.cons _ _ ['\r'] _ _ (by decide) (.text htext) .nil) (by decide) hlast
  have hfirst := @Prints.cons (.chunkSize 7) _ [] "cHunkSize".toList _ _ (by decide) (by decide)
    (@SpellsOperands.cons _ _ " \t".toList _ _ (by decide) hseven .nil) (by decide) hsecond
  have hscript : Prints ss script.toList := by
    have hchars : script.toList = [] ++ ("cHunkSize".toList ++ ((" \t".toList ++ ("007".toList ++ [])) ++
      " \nsAy\r\"q\\\"\n\\n\" CHUNKSIZE 0\n".toList)) := by decide
    rw [hchars]
    exact hfirst
  obtain ⟨hparse, hdiagnostics⟩ := parseScript_printed hss hscript
  exact ⟨hss, hscript, hparse.trans (congrArg Except.ok (by decide +kernel)), hdiagnostics⟩

/-! ## A spelling of every list of statements -/

/-- A character inside a literal, after a backslash if it needs one. -/
def escapeLiteral (c : Char) : List Char := if c = '"' ∨ c = '\\' then ['\\', c] else [c]

/-- An operand as it is printed. -/
def Operand.render : Operand → List Char
  | .text s => '"' :: (s.toList.flatMap escapeLiteral ++ ['"'])
  | .number n => Numeral.digits 10 n

/-- A statement as it is printed, on a line of its own. -/
def Statement.render (st : Statement) : List Char :=
  st.keyword.name.toList ++ st.operands.flatMap fun o => ' ' :: o.render

/-- A script of one statement a line. -/
def renderScript : List Statement → List Char
  | [] => []
  | st :: ss => st.render ++ (if ss = [] then [] else '\n' :: renderScript ss)

theorem spellsText_escapeLiteral (cs : List Char) : SpellsText cs (cs.flatMap escapeLiteral) := by
  induction cs with
  | nil => exact .nil
  | cons c cs ih =>
    rw [List.flatMap_cons]
    unfold escapeLiteral
    split
    · rename_i h
      rcases h with rfl | rfl
      · exact .escaped (by decide) ih
      · exact .escaped (by decide) ih
    · rename_i h
      exact .itself (fun hc => h (.inl hc)) (fun hc => h (.inr hc)) ih

theorem spellsOperand_render (o : Operand) : SpellsOperand o o.render := by
  cases o with
  | text s => exact .text (spellsText_escapeLiteral s.toList)
  | number n =>
    have h := SpellsOperand.number (Numeral.digits_ne_nil 10 n) fun _ hd => Numeral.isDigit_of_mem_decimal hd
    rw [Numeral.value_digits (by omega) (by omega)] at h
    exact h

theorem spellsOperands_render (os : List Operand) : SpellsOperands os (os.flatMap fun o => ' ' :: o.render) := by
  induction os with
  | nil => exact .nil
  | cons o os ih =>
    have hgap : IsGap [' '] := ⟨List.cons_ne_nil _ _, fun c hc => .inl (List.mem_singleton.1 hc)⟩
    exact .cons hgap (spellsOperand_render o) ih

theorem spellsKeyword_name (k : Keyword) : SpellsKeyword k k.name.toList := by
  unfold SpellsKeyword
  cases k <;> decide

/-- A separator may be put before a printed script. -/
theorem Prints.separated {ss : List Statement} {cs : List Char} (h : Prints ss cs) {c : Char} (hc : IsSeparator [c]) :
    Prints ss (c :: cs) := by
  have hcons : ∀ {ds : List Char}, IsSeparator ds → IsSeparator (c :: ds) := by
    intro ds hds d hd
    rcases List.mem_cons.1 hd with rfl | hd
    · exact hc d List.mem_cons_self
    · exact hds d hd
  cases h with
  | nil h => exact .nil (hcons h)
  | cons hb hw h hr hs => exact .cons (hcons hb) hw h hr hs

/-- A script of one statement a line spells its statements. -/
theorem prints_renderScript (ss : List Statement) : Prints ss (renderScript ss) := by
  have hnone : IsSeparator [] := fun _ h => nomatch h
  have hline : IsSeparator ['\n'] := fun c hc => .inl (List.mem_singleton.1 hc)
  induction ss with
  | nil => exact .nil hnone
  | cons st ss ih =>
    have hword := spellsKeyword_name st.keyword
    have hoperands := spellsOperands_render st.operands
    rw [renderScript, Statement.render, List.append_assoc]
    split
    · rename_i h
      subst h
      exact .cons hnone hword hoperands hnone (.nil hnone)
    · exact .cons hnone hword hoperands hline (ih.separated hline)

end ScriptedModel.Script
