/-
How the characters of an outline are placed and its scalars read. None of them is written otherwise than it is
meant. A label goes on to the colon behind it or to the end of its line, and with a line end the indentation of
the next line is read, which is why the scalar stops only there.
-/
import ScriptedModel.Proofs.Yaml.Outline
import ScriptedModel.Yaml.Plain
import ScriptedModel.Yaml.Quoted

namespace ScriptedModel.Yaml

/-! ## Characters -/

/-- Whether a character may stand in a text and is no line end that is written otherwise. -/
def isOwn (c : Char) : Bool := isAllowed c && c ≠ '\r' && c ≠ '\u0085'

theorem isOwn_of_isLabelChar {c : Char} (h : isLabelChar c = true) : isOwn c = true := by
  obtain ⟨hlow, hhigh⟩ := isLabelChar_bounds h
  have hspace : ' ' ≤ c := Char.le_trans (by decide) hlow
  have htilde : c ≤ '~' := Char.le_trans hhigh (by decide)
  simp only [isOwn, isAllowed, hspace, htilde, ne_of_isLabelChar h (d := '\r') rfl,
    ne_of_isLabelChar h (d := '\u0085') rfl, decide_true, Bool.and_self, Bool.or_true, Bool.true_or, ne_eq,
    not_false_eq_true]

theorem all_isOwn {cs : List Char} (h : cs.all isLabelChar = true) : cs.all isOwn = true :=
  List.all_eq_true.2 fun c hc => isOwn_of_isLabelChar (List.all_eq_true.1 h c hc)

theorem Atom.all_isOwn (a : Atom) : a.chars.all isOwn = true := by
  cases a with
  | plain cs h => exact Yaml.all_isOwn h.all
  | quoted cs h =>
    rw [chars, List.all_cons, List.all_append, Yaml.all_isOwn h]
    rfl

theorem Content.all_isOwn (c : Content) : c.chars.all isOwn = true := by
  cases c with
  | scalar a =>
    rw [chars, List.all_cons, List.all_append, a.all_isOwn]
    rfl
  | list as =>
    cases as with
    | nil => decide
    | cons a as =>
      rw [chars, List.all_cons, List.all_flatMap, Bool.and_eq_true, List.all_eq_true]
      refine ⟨rfl, fun b _ => ?_⟩
      rw [Atom.entryChars, List.all_append, List.all_append, b.all_isOwn]
      rfl

theorem Member.all_isOwn (m : Member) : m.chars.all isOwn = true := by
  rw [chars, List.all_append, List.all_append, List.all_cons, Yaml.all_isOwn m.name.label.all, m.content.all_isOwn]
  rfl

theorem Section.all_isOwn (s : Section) : s.chars.all isOwn = true := by
  have hmembers : (s.members.flatMap Member.chars).all isOwn = true := by
    rw [List.all_flatMap, List.all_eq_true]
    exact fun m _ => m.all_isOwn
  rw [chars, List.all_append, List.all_append, Yaml.all_isOwn s.name.label.all, hmembers]
  rfl

theorem Outline.all_isOwn (o : Outline) : o.chars.all isOwn = true := by
  rw [chars, List.all_flatMap, List.all_eq_true]
  exact fun s _ => s.all_isOwn

theorem unified_eq_self {cs : List Char} (h : cs.all isOwn = true) : unified cs = cs := by
  induction cs with
  | nil => rfl
  | cons c cs ih =>
    rw [List.all_cons, Bool.and_eq_true, isOwn, Bool.and_eq_true, Bool.and_eq_true, decide_eq_true_eq,
      decide_eq_true_eq] at h
    rw [unified, ih h.2]
    · exact fun _ hc _ => h.1.1.2 hc
    · exact h.1.1.2
    · exact h.1.2

namespace Glyph

theorem ofText?_ofList {cs : List Char} (h : cs.all isOwn = true) :
    ofText? (String.ofList cs) = some (locate 0 0 cs) := by
  have hallowed : cs.all isAllowed = true := List.all_eq_true.2 fun c hc => by
    have hown := List.all_eq_true.1 h c hc
    rw [isOwn, Bool.and_eq_true, Bool.and_eq_true] at hown
    exact hown.1.1
  simp only [ofText?, String.toList_ofList, unified_eq_self h, hallowed, if_true]

theorem length_locate (line column : Nat) (cs : List Char) : (locate line column cs).length = cs.length + 1 := by
  induction cs generalizing line column with
  | nil => rfl
  | cons c cs ih =>
    rw [locate, List.length_cons, List.length_cons]
    split <;> rw [ih]

theorem locate_lineEnd (line column : Nat) (cs : List Char) :
    locate line column ('\n' :: cs) = ⟨'\n', line, column⟩ :: locate (line + 1) 0 cs := rfl

theorem locate_cons {c : Char} (h : isBreak c = false) (line column : Nat) (cs : List Char) :
    locate line column (c :: cs) = ⟨c, line, column⟩ :: locate line (column + 1) cs := by
  rw [locate, h]
  rfl

theorem isTriple_eq_false {c d : Char} {line column : Nat} (h : column ≠ 0 ∨ c ≠ d) (gs : List Glyph) :
    isTriple d (⟨c, line, column⟩ :: gs) = false := by
  rcases h with h | h
  · simp only [isTriple, List.head?_cons, Option.any_some, h, decide_false, Bool.false_and]
  · simp only [isTriple, List.take_succ_cons, List.map_cons, List.cons.injEq, h, false_and, decide_false, Bool.and_false,
      Bool.false_and]

theorem isDocumentMark_eq_false {line column : Nat} (h : column ≠ 0) (c : Char) (gs : List Glyph) :
    isDocumentMark (⟨c, line, column⟩ :: gs) = false := by
  rw [isDocumentMark, isTriple_eq_false (.inl h), isTriple_eq_false (.inl h), Bool.or_self]

end Glyph

open Glyph (locate locate_cons locate_lineEnd length_locate)

/-! ## Scalars -/

/-- A text of lines of which the first one begins to the left of a column, with a character of a label. -/
def IsOutdented (least : Nat) (cs : List Char) : Prop :=
  ∃ i r, cs = List.replicate i ' ' ++ r ∧ i < least ∧ r.head?.all isLabelChar = true

theorem IsOutdented.mono {least least' : Nat} (hle : least ≤ least') {cs : List Char} (h : IsOutdented least cs) :
    IsOutdented least' cs := by
  obtain ⟨i, r, hcs, hi, hr⟩ := h
  exact ⟨i, r, hcs, Nat.lt_of_lt_of_le hi hle, hr⟩

theorem IsLabel.head?_append {cs : List Char} (h : IsLabel cs) (r : List Char) :
    (cs ++ r).head?.all isLabelChar = true := by
  obtain ⟨c, cs, rfl, hc, -⟩ := h.exists_cons
  exact isLabelChar_of_isAlphanum hc

namespace Plain

variable (least line : Nat)

theorem readFrom?_label {cs : List Char} (h : cs.all isLabelChar = true) (column : Nat) (before r : List Char) :
    readFrom? false least .none before (locate line column (cs ++ r)) =
      readFrom? false least .none (cs.reverse ++ before) (locate line (column + cs.length) r) := by
  induction cs generalizing column before with
  | nil => rfl
  | cons c cs ih =>
    rw [List.all_cons, Bool.and_eq_true] at h
    have hblank := Scalar.isBlank_of_isLabelChar h.1
    have hbreak := Scalar.isBreak_of_isLabelChar h.1
    have hends : endsAt false least .none ⟨c, line, column⟩ (locate line (column + 1) (cs ++ r)) = false := by
      simp only [endsAt, ne_of_isLabelChar h.1 (d := endMark) rfl, ne_of_isLabelChar h.1 (d := ':') rfl, decide_false,
        Bool.false_and, ne_eq, not_true_eq_false, Bool.or_self]
    rw [List.cons_append, locate_cons hbreak, readFrom?]
    simp only [hblank, hbreak, hends, Bool.false_and, Bool.false_eq_true, if_false]
    rw [show Gap.none.onto before = before from rfl, ih h.2, List.reverse_cons, List.append_assoc, List.length_cons,
      Nat.add_assoc, Nat.add_comm 1]
    rfl

theorem readFrom?_spaces {i column : Nat} (more : List Char) (first? : Option Char) (before r : List Char) :
    readFrom? false least (.lines more first?) before (locate line column (List.replicate i ' ' ++ r)) =
      readFrom? false least (.lines more first?) before (locate line (column + i) r) := by
  induction i generalizing column with
  | zero => rfl
  | succ i ih =>
    rw [List.replicate_succ, List.cons_append, locate_cons rfl, readFrom?]
    show readFrom? false least (.lines more first?) before _ = _
    rw [ih, Nat.add_assoc, Nat.add_comm 1]

/-- A scalar ends with its line if the next one is not indented enough. -/
theorem readFrom?_lineEnd {least : Nat} {r : List Char} (h : IsOutdented least r) (column : Nat) (before : List Char) :
    ∃ i r', readFrom? false least .none before (locate line column ('\n' :: r)) =
      some ⟨before.reverse, true, locate (line + 1) i r'⟩ ∧ r = List.replicate i ' ' ++ r' := by
  obtain ⟨i, r', rfl, hi, hfirst⟩ := h
  refine ⟨i, r', ?_, rfl⟩
  rw [locate_lineEnd, readFrom?]
  show readFrom? false least (.lines [] (some '\n')) before _ = _
  rw [readFrom?_spaces, Nat.zero_add]
  cases r' with
  | nil => rfl
  | cons c r' =>
    have hblank := Scalar.isBlank_of_isLabelChar hfirst
    have hbreak := Scalar.isBreak_of_isLabelChar hfirst
    rw [locate_cons hbreak, readFrom?]
    simp only [hblank, hbreak, Bool.false_eq_true, if_false, endsAt, hi, decide_true, Bool.not_false, Bool.true_and,
      Bool.true_or, ne_eq, reduceCtorEq, Gap.none, not_false_eq_true, Bool.or_true, if_true, Gap.spansLines]

theorem readFrom?_colon {d : Char} (hd : isSeparator d = true) (column : Nat) (before r : List Char) :
    readFrom? false least .none before (locate line column (':' :: d :: r)) =
      some ⟨before.reverse, false, locate line column (':' :: d :: r)⟩ := by
  have hnext : Glyph.next (locate line (column + 1) (d :: r)) = d := rfl
  rw [locate_cons rfl, readFrom?]
  simp only [endsAt, hnext, hd]
  rfl

end Plain

theorem Quoted.singleFrom?_label {cs : List Char} (h : cs.all isLabelChar = true) {column : Nat} (hcolumn : column ≠ 0)
    (line : Nat) (before r : List Char) :
    singleFrom? .none before (locate line column (cs ++ '\'' :: '\n' :: r)) =
      some (before.reverse ++ cs, locate line (column + cs.length + 1) ('\n' :: r)) := by
  induction cs generalizing column before with
  | nil =>
    rw [List.nil_append, locate_cons rfl, locate_lineEnd, singleFrom?, Glyph.isDocumentMark_eq_false hcolumn,
      List.append_nil]
    rfl
  | cons c cs ih =>
    rw [List.all_cons, Bool.and_eq_true] at h
    have hblank := Scalar.isBlank_of_isLabelChar h.1
    have hbreak := Scalar.isBreak_of_isLabelChar h.1
    rw [List.cons_append, locate_cons hbreak, singleFrom?.eq_def]
    simp only [hblank, hbreak, Glyph.isDocumentMark_eq_false hcolumn, ne_of_isLabelChar h.1 (d := endMark) rfl,
      ne_of_isLabelChar h.1 (d := '\'') rfl, decide_false, Bool.or_self, Bool.false_eq_true, if_false]
    rw [show Gap.none.onto before = before from rfl, ih h.2 (by omega), List.reverse_cons,
      List.append_assoc, List.length_cons, Nat.add_right_comm column 1]
    rfl

end ScriptedModel.Yaml
