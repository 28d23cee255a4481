/-
Texts that are put together at separators are cut there again.
-/
import ScriptedModel.Text.Split

namespace ScriptedModel.Split

variable {c : Char} {before : List Char}

theorem atFirst?_append (h : c ∉ before) (after : List Char) :
    atFirst? c (before ++ c :: after) = some (before, after) := by
  induction before with
  | nil => rw [List.nil_append, atFirst?, if_pos rfl]
  | cons b before ih =>
    have hb : b ≠ c := fun hbc => h (hbc ▸ List.mem_cons_self)
    have hbefore : c ∉ before := fun hc => h (List.mem_cons_of_mem b hc)
    rw [List.cons_append, atFirst?, if_neg hb, ih hbefore]
    rfl

theorem atFirst?_of_notMem {cs : List Char} (h : c ∉ cs) : atFirst? c cs = none := by
  induction cs with
  | nil => rfl
  | cons b cs ih =>
    obtain ⟨hb, hcs⟩ := List.ne_and_not_mem_of_not_mem_cons h
    rw [atFirst?, if_neg hb.symm, ih hcs]
    rfl

/-- What is cut at a separator has it there. -/
theorem eq_of_atFirst? {cs after : List Char} (h : atFirst? c cs = some (before, after)) : cs = before ++ c :: after := by
  induction cs generalizing before with
  | nil => cases h
  | cons d cs ih =>
    rw [atFirst?] at h
    split at h
    · rename_i hd
      cases h
      rw [hd]
      rfl
    · obtain ⟨⟨b, a⟩, hp, hpair⟩ := Option.map_eq_some_iff.1 h
      cases hpair
      rw [ih hp]
      rfl

theorem atLast?_append {after : List Char} (h : c ∉ after) (before : List Char) :
    atLast? c (before ++ c :: after) = some (before, after) := by
  have hreverse : (before ++ c :: after).reverse = after.reverse ++ c :: before.reverse := by
    simp only [List.reverse_append, List.reverse_cons, List.append_assoc, List.singleton_append]
  rw [atLast?, hreverse, atFirst?_append (fun hmem => h (List.mem_reverse.1 hmem)), Option.map_some,
    List.reverse_reverse, List.reverse_reverse]

theorem eq_of_atLast? {cs after : List Char} (h : atLast? c cs = some (before, after)) : cs = before ++ c :: after := by
  obtain ⟨⟨a, b⟩, hp, hpair⟩ := Option.map_eq_some_iff.1 h
  cases hpair
  have hreverse := congrArg List.reverse (eq_of_atFirst? hp)
  rw [List.reverse_reverse] at hreverse
  rw [hreverse]
  simp only [List.reverse_append, List.reverse_cons, List.append_assoc, List.singleton_append]

theorem pieces_of_notMem (h : c ∉ before) : pieces c before = [before] := by
  induction before with
  | nil => rfl
  | cons b before ih =>
    have hb : b ≠ c := fun hbc => h (hbc ▸ List.mem_cons_self)
    have hbefore : c ∉ before := fun hc => h (List.mem_cons_of_mem b hc)
    rw [pieces, if_neg hb, ih hbefore]

theorem pieces_append (h : c ∉ before) (after : List Char) :
    pieces c (before ++ c :: after) = before :: pieces c after := by
  induction before with
  | nil => rw [List.nil_append, pieces, if_pos rfl]
  | cons b before ih =>
    have hb : b ≠ c := fun hbc => h (hbc ▸ List.mem_cons_self)
    have hbefore : c ∉ before := fun hc => h (List.mem_cons_of_mem b hc)
    rw [List.cons_append, pieces, if_neg hb, ih hbefore]

theorem pieces_ne_nil (c : Char) (cs : List Char) : pieces c cs ≠ [] := by
  cases cs with
  | nil => exact List.cons_ne_nil _ _
  | cons d cs =>
    rw [pieces]
    split
    · exact List.cons_ne_nil _ _
    · split <;> exact List.cons_ne_nil _ _

/-- What holds of a text without separators, and of one with a further piece before it, holds of every text. -/
@[elab_as_elim]
theorem induction_pieces {motive : List Char → Prop} (last : ∀ piece, c ∉ piece → motive piece)
    (further : ∀ piece rest, c ∉ piece → motive rest → motive (piece ++ c :: rest)) (cs : List Char) : motive cs := by
  induction hn : cs.length using Nat.strongRecOn generalizing cs with
  | _ n ih =>
    subst hn
    by_cases hmem : c ∈ cs
    · obtain ⟨piece, rest, rfl, hpiece⟩ := List.eq_append_cons_of_mem hmem
      refine further piece rest hpiece (ih rest.length ?_ rest rfl)
      simp only [List.length_append, List.length_cons]
      omega
    · exact last cs hmem

theorem notMem_of_mem_pieces {cs piece : List Char} (h : piece ∈ pieces c cs) : c ∉ piece := by
  induction cs using induction_pieces (c := c) with
  | last cs hcs =>
    rw [pieces_of_notMem hcs, List.mem_singleton] at h
    rwa [h]
  | further first rest hfirst ih =>
    rw [pieces_append hfirst, List.mem_cons] at h
    rcases h with rfl | h
    · exact hfirst
    · exact ih h

/-- Pieces that are joined with separators are the pieces of the text. -/
theorem pieces_intercalate {ps : List (List Char)} (hne : ps ≠ []) (h : ∀ p ∈ ps, c ∉ p) :
    pieces c ([c].intercalate ps) = ps := by
  induction ps with
  | nil => exact absurd rfl hne
  | cons p ps ih =>
    have hp : c ∉ p := h p List.mem_cons_self
    by_cases hps : ps = []
    · subst hps
      rw [List.intercalate_singleton, pieces_of_notMem hp]
    · rw [List.intercalate_cons_of_ne_nil hps, List.append_assoc, List.singleton_append, pieces_append hp,
        ih hps fun q hq => h q (List.mem_cons_of_mem p hq)]

/-- The pieces of a text make it again. -/
theorem intercalate_pieces (c : Char) (cs : List Char) : [c].intercalate (pieces c cs) = cs := by
  induction cs using induction_pieces (c := c) with
  | last cs hcs => rw [pieces_of_notMem hcs, List.intercalate_singleton]
  | further first rest hfirst ih =>
    rw [pieces_append hfirst, List.intercalate_cons_of_ne_nil (pieces_ne_nil c rest), ih, List.append_assoc,
      List.singleton_append]

end ScriptedModel.Split
