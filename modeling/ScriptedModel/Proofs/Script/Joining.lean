/-
Scripts that are joined, each on lines of its own. The first that is faulty by itself decides where the
whole is faulty, and empty ones count for nothing but a line each.

Main statement: with the empty ones or without, closed scripts that are joined establish the same
statements, or have the same fault, on lines that differ by the number of empty ones before it.
-/
import ScriptedModel.Proofs.Script.Composition

namespace ScriptedModel.Script

open Lexer

/-- The lines that texts take before what is joined to them. -/
def linesOf : List String → Nat
  | [] => 0
  | t :: texts => lineFeeds t + 1 + linesOf texts

theorem ParseError.down_down (m n : Nat) (e : ParseError) : (e.down m).down n = e.down (n + m) := by
  unfold ParseError.down Position.down
  simp only [Nat.add_assoc, Nat.add_comm m n]

theorem summary_readScript_empty : (Parser.readScript "").summary = ([], none) := by
  rw [Parser.readScript, tokenize, String.toList_empty, lexemes]
  rfl

theorem statementsOf_empty : statementsOf "" = [] := congrArg Prod.fst summary_readScript_empty

/-! ## Joined scripts -/

/-- What is read of scripts of which the first is joined to others. -/
theorem summary_joined_cons {t : String} (ht : IsClosed t) (hok : (Parser.readScript t).summary.2 = none)
    {later : List String} (hlater : later ≠ []) :
    (Parser.readScript ("\n".intercalate (t :: later))).summary =
      (statementsOf t ++ (Parser.readScript ("\n".intercalate later)).summary.1,
        (Parser.readScript ("\n".intercalate later)).summary.2.map (ParseError.down (lineFeeds t + 1))) := by
  rw [String.intercalate_cons_of_ne_nil hlater, readScript_lines ht, Reading.summary_andThen hok, summary_readScript_down]
  rfl

/-- Scripts without a fault that are joined complete their statements, one after another. -/
theorem summary_joined {texts : List String} (hclosed : ∀ t ∈ texts, IsClosed t)
    (hok : ∀ t ∈ texts, (Parser.readScript t).summary.2 = none) :
    (Parser.readScript ("\n".intercalate texts)).summary = (texts.flatMap statementsOf, none) := by
  induction texts with
  | nil => exact summary_readScript_empty
  | cons t later ih =>
    obtain ⟨ht, hclosed⟩ := List.forall_mem_cons.1 hclosed
    obtain ⟨hokt, hok⟩ := List.forall_mem_cons.1 hok
    by_cases hlater : later = []
    · subst hlater
      rw [String.intercalate_singleton, List.flatMap_singleton]
      exact Prod.ext rfl hokt
    · rw [summary_joined_cons ht hokt hlater, ih hclosed hok]
      rfl

/-- The first script with a fault decides. -/
theorem fault_joined {before : List String} (hclosed : ∀ b ∈ before, IsClosed b)
    (hok : ∀ b ∈ before, (Parser.readScript b).summary.2 = none) {t : String} (ht : IsClosed t) {e : ParseError}
    (he : (Parser.readScript t).summary.2 = some e) (after : List String) :
    (Parser.readScript ("\n".intercalate (before ++ t :: after))).summary.2 = some (e.down (linesOf before)) := by
  induction before with
  | nil =>
    show (Parser.readScript ("\n".intercalate (t :: after))).summary.2 = some e
    by_cases hafter : after = []
    · rw [hafter, String.intercalate_singleton, he]
    · rw [String.intercalate_cons_of_ne_nil hafter, readScript_lines ht]
      exact Reading.summary_andThen_fault he _
  | cons b before ih =>
    obtain ⟨hb, hclosed⟩ := List.forall_mem_cons.1 hclosed
    obtain ⟨hokb, hok⟩ := List.forall_mem_cons.1 hok
    have hlater : before ++ t :: after ≠ [] := List.append_ne_nil_of_right_ne_nil before (List.cons_ne_nil t after)
    rw [List.cons_append, summary_joined_cons hb hokb hlater, ih hclosed hok, Option.map_some, ParseError.down_down]
    rfl

theorem parseScript_joined {texts : List String} (hclosed : ∀ t ∈ texts, IsClosed t)
    (hok : ∀ t ∈ texts, (Parser.readScript t).summary.2 = none) :
    parseScript ("\n".intercalate texts) = .ok (commandsUnder .unset (texts.flatMap statementsOf)) := by
  have hsummary := summary_joined hclosed hok
  rw [parseScript_eq_ok, statementsOf]
  exact ⟨congrArg Prod.snd hsummary, congrArg (commandsUnder .unset) (congrArg Prod.fst hsummary).symm⟩

/-- Of scripts none is faulty, or there is a first that is. -/
theorem exists_first_fault (texts : List String) :
    (∀ t ∈ texts, (Parser.readScript t).summary.2 = none) ∨
      ∃ before t after e, texts = before ++ t :: after ∧ (∀ b ∈ before, (Parser.readScript b).summary.2 = none) ∧
        (Parser.readScript t).summary.2 = some e := by
  rcases hfind : texts.find? (fun t => (Parser.readScript t).summary.2.isSome) with _ | t
  · refine .inl fun t ht => ?_
    simpa using List.find?_eq_none.1 hfind t ht
  · obtain ⟨ht, before, after, rfl, hbefore⟩ := List.find?_eq_some_iff_append.1 hfind
    obtain ⟨e, he⟩ := Option.isSome_iff_exists.1 ht
    exact .inr ⟨before, t, after, e, rfl, fun b hb => by simpa using hbefore b hb, he⟩

/-! ## Empty scripts -/

/-- The scripts that are not empty. -/
def filled (texts : List String) : List String := texts.filter fun t => t ≠ ""

theorem forall_mem_filled {p : String → Prop} {texts : List String} (h : ∀ t ∈ texts, p t) : ∀ t ∈ filled texts, p t :=
  fun t ht => h t (List.mem_filter.1 ht).1

theorem filled_cons_empty (texts : List String) : filled ("" :: texts) = filled texts := rfl

theorem filled_cons_of_ne {t : String} (h : t ≠ "") (texts : List String) : filled (t :: texts) = t :: filled texts :=
  List.filter_cons_of_pos (decide_eq_true h)

theorem statementsOf_filled (texts : List String) : (filled texts).flatMap statementsOf = texts.flatMap statementsOf := by
  induction texts with
  | nil => rfl
  | cons t texts ih =>
    rw [List.flatMap_cons, ← ih]
    by_cases ht : t = ""
    · rw [ht, filled_cons_empty, statementsOf_empty, List.nil_append]
    · rw [filled_cons_of_ne ht, List.flatMap_cons]

theorem linesOf_eq_filled (texts : List String) : linesOf texts = linesOf (filled texts) + texts.count "" := by
  induction texts with
  | nil => rfl
  | cons t texts ih =>
    rw [linesOf, ih]
    by_cases ht : t = ""
    · rw [ht, filled_cons_empty, List.count_cons_self, show lineFeeds "" = 0 from rfl]
      omega
    · rw [filled_cons_of_ne ht, linesOf, List.count_cons_of_ne ht]
      omega

end ScriptedModel.Script
