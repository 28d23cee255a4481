/-
Cutting a text. The chunks, joined, are the text, and there is always one. A text for which no size is
configured is one chunk.

Main statement: a text with something to cut has as many chunks as the size goes into its length, rounded
up, each but the last of that size, and the last of one character to that size; it can be cut like that in
one way only.
-/
import Mathlib.Algebra.Order.Floor.Div
import ScriptedModel.Stream.Chunks

namespace ScriptedModel.Stream

/-! ## Joining -/

theorem flatten_pieces (size : Nat) (cs : List Char) : (pieces size cs).flatten = cs := by
  fun_induction pieces size cs with
  | case1 => rfl
  | case2 c cs ih => rw [List.flatten_cons, ih, List.cons_append, List.take_append_drop]

/-- A size that nothing exceeds does not cut. -/
theorem pieces_of_length_le {size : Nat} {cs : List Char} (hcs : cs ≠ []) (h : cs.length ≤ size) :
    pieces size cs = [cs] := by
  obtain ⟨c, rest, rfl⟩ := List.exists_cons_of_ne_nil hcs
  have hrest : rest.length ≤ size - 1 := by
    rw [List.length_cons] at h
    omega
  rw [pieces, List.take_of_length_le hrest, List.drop_of_length_le hrest, pieces]

/-- A full piece is cut off whatever comes after it. -/
theorem pieces_append {size : Nat} {p : List Char} (hp : p.length = size) (hsize : 0 < size) (cs : List Char) :
    pieces size (p ++ cs) = p :: pieces size cs := by
  obtain ⟨c, rest, rfl⟩ := List.exists_cons_of_length_pos (hp.symm ▸ hsize)
  have hrest : rest.length = size - 1 := by
    rw [← hp, List.length_cons, Nat.add_sub_cancel]
  rw [List.cons_append, pieces, List.take_left' hrest, List.drop_left' hrest]

theorem join_map_ofList (pieces : List (List Char)) :
    String.join (pieces.map String.ofList) = String.ofList pieces.flatten := by
  rw [← String.toList_inj, String.toList_join, String.toList_ofList, List.flatMap_map]
  simp only [String.toList_ofList]
  exact List.flatMap_id

theorem join_chunkText (text : String) (size : Nat) : String.join (chunkText text size) = text := by
  unfold chunkText
  split
  · rw [String.join_cons, String.join_nil, String.append_empty]
  · rw [join_map_ofList, flatten_pieces, String.ofList_toList]

/-- A text that is cut has something to cut. -/
theorem toList_ne_nil {text : String} {size : Nat} (h : ¬ (text = "" ∨ size = 0)) : text.toList ≠ [] :=
  fun hnil => h (.inl (String.toList_eq_nil_iff.1 hnil))

theorem chunkText_ne_nil (text : String) (size : Nat) : chunkText text size ≠ [] := by
  unfold chunkText
  split
  case isTrue => exact List.cons_ne_nil _ _
  case isFalse h =>
    obtain ⟨c, cs, hcs⟩ := List.exists_cons_of_ne_nil (toList_ne_nil h)
    rw [hcs, pieces]
    exact List.cons_ne_nil _ _

/-- A text that is no longer than its size is one chunk. -/
theorem chunkText_of_length_le {text : String} {size : Nat} (h : text.length ≤ size) : chunkText text size = [text] := by
  unfold chunkText
  split
  case isTrue => rfl
  case isFalse hcut =>
    rw [← String.length_toList] at h
    rw [pieces_of_length_le (toList_ne_nil hcut) h, List.map_cons, List.map_nil, String.ofList_toList]

theorem chunkText_unset (text : String) : chunkText text (effectiveSize text none) = [text] :=
  chunkText_of_length_le (Nat.le_max_right 1 text.length)

/-! ## Lengths -/

/-- The lengths of the chunks of a positive length: full ones, and what they leave of it, which is as much
as a full one at most. -/
def chunkLengths (size total : Nat) : List Nat :=
  List.replicate ((total - 1) / size) size ++ [(total - 1) % size + 1]

variable {size : Nat}

theorem chunkLengths_of_le {total : Nat} (hpos : 0 < total) (h : total ≤ size) : chunkLengths size total = [total] := by
  have hlt : total - 1 < size := by omega
  rw [chunkLengths, Nat.div_eq_of_lt hlt, Nat.mod_eq_of_lt hlt, List.replicate_zero, List.nil_append,
    Nat.sub_add_cancel hpos]

theorem chunkLengths_add (hsize : 0 < size) {total : Nat} (hpos : 0 < total) :
    chunkLengths size (size + total) = size :: chunkLengths size total := by
  rw [chunkLengths, Nat.add_sub_assoc hpos, Nat.add_div_left _ hsize, Nat.add_mod_left, List.replicate_succ,
    List.cons_append, chunkLengths]

/-- There are as many as the size goes into the length, rounded up. -/
theorem length_chunkLengths (hsize : 0 < size) {total : Nat} (hpos : 0 < total) :
    (chunkLengths size total).length = total ⌈/⌉ size := by
  have hround : total + size - 1 = total - 1 + size := by omega
  rw [chunkLengths, List.length_append, List.length_replicate, List.length_singleton, Nat.ceilDiv_eq_add_pred_div,
    hround, Nat.add_div_right _ hsize]

theorem map_length_pieces (hsize : 0 < size) {cs : List Char} (hcs : cs ≠ []) :
    (pieces size cs).map List.length = chunkLengths size cs.length := by
  -- a full piece is taken off while there is more than one; what is left is the last
  fun_induction pieces size cs with
  | case1 => exact absurd rfl hcs
  | case2 c cs ih =>
    rcases Nat.lt_or_ge cs.length size with hlt | hge
    · have hshort : cs.length ≤ size - 1 := by omega
      rw [List.take_of_length_le hshort, List.drop_of_length_le hshort, pieces, List.map_cons, List.map_nil,
        chunkLengths_of_le (List.length_pos_of_ne_nil hcs) hlt]
    · have hrest : 0 < (cs.drop (size - 1)).length := by
        rw [List.length_drop]
        omega
      have hfirst : (c :: cs.take (size - 1)).length = size := by
        rw [List.length_cons, List.length_take]
        omega
      have htotal : (c :: cs).length = size + (cs.drop (size - 1)).length := by
        rw [List.length_cons, List.length_drop]
        omega
      rw [List.map_cons, hfirst, ih (List.ne_nil_of_length_pos hrest), htotal, chunkLengths_add hsize hrest]

/-- The lengths of the chunks of a text that is cut, in characters. -/
theorem map_length_chunkText {text : String} (htext : text ≠ "") (hsize : 0 < size) :
    (chunkText text size).map String.length = chunkLengths size text.length := by
  have hcut : ¬ (text = "" ∨ size = 0) := not_or.2 ⟨htext, hsize.ne'⟩
  rw [chunkText, if_neg hcut, List.map_map, ← String.length_toList,
    ← map_length_pieces hsize (toList_ne_nil hcut)]
  exact List.map_congr_left fun cs _ => String.length_ofList

theorem length_chunkText {text : String} (htext : text ≠ "") (hsize : 0 < size) :
    (chunkText text size).length = text.length ⌈/⌉ size := by
  have hlength : 0 < text.length := Nat.pos_of_ne_zero (mt String.length_eq_zero_iff.1 htext)
  rw [← List.length_map (f := String.length), map_length_chunkText htext hsize, length_chunkLengths hsize hlength]

/-! ## The only cut -/

/-- Pieces of which each but the last is full are those that their joined list is cut into. An empty last
piece would not be cut off. -/
theorem pieces_flatten (hsize : 0 < size) {ps : List (List Char)} (hps : ps ≠ [])
    (hfull : ∀ p ∈ ps.dropLast, p.length = size) (hlast : ps.getLast hps ≠ [])
    (hle : (ps.getLast hps).length ≤ size) : pieces size ps.flatten = ps := by
  induction ps with
  | nil => exact absurd rfl hps
  | cons p ps ih =>
    cases ps with
    | nil =>
      rw [List.getLast_singleton] at hlast hle
      rw [List.flatten_singleton, pieces_of_length_le hlast hle]
    | cons q ps =>
      rw [List.dropLast_cons_cons, List.forall_mem_cons] at hfull
      rw [List.getLast_cons (List.cons_ne_nil q ps)] at hlast hle
      rw [List.flatten_cons, pieces_append hfull.1 hsize, ih (List.cons_ne_nil q ps) hfull.2 hlast hle]

/-- Texts that a text is cut into with a size: the text as a whole where it is empty or the size is zero, and
otherwise texts of that many characters, of which the last may have fewer, but has some. -/
structure IsCut (text : String) (size : Nat) (chunks : List String) : Prop where
  ne_nil : chunks ≠ []
  joined : String.join chunks = text
  whole : text = "" ∨ size = 0 → chunks = [text]
  count : text ≠ "" → 0 < size → chunks.length = text.length ⌈/⌉ size
  full : text ≠ "" → 0 < size → ∀ chunk ∈ chunks.dropLast, chunk.length = size
  last : text ≠ "" → 0 < size → 1 ≤ (chunks.getLast ne_nil).length ∧ (chunks.getLast ne_nil).length ≤ size

theorem isCut_chunkText (text : String) (size : Nat) : IsCut text size (chunkText text size) where
  ne_nil := chunkText_ne_nil text size
  joined := join_chunkText text size
  whole := fun h => if_pos h
  count := length_chunkText
  full := by
    intro htext hsize chunk hchunk
    have hlength := List.mem_map_of_mem (f := String.length) hchunk
    rw [List.map_dropLast, map_length_chunkText htext hsize, chunkLengths, List.dropLast_concat] at hlength
    exact List.eq_of_mem_replicate hlength
  last := by
    intro htext hsize
    have hne := chunkText_ne_nil text size
    have hlast : ((chunkText text size).getLast hne).length = (text.length - 1) % size + 1 := by
      rw [← List.getLast_map (f := String.length) (mt List.map_eq_nil_iff.1 hne)]
      simp only [map_length_chunkText htext hsize, chunkLengths, List.getLast_concat]
    rw [hlast]
    exact ⟨Nat.le_add_left 1 _, Nat.mod_lt _ hsize⟩

/-- Chunks of which each but the last is full are those that their joined text is cut into: how many there are
follows from how long they are. -/
theorem chunkText_join (hsize : 0 < size) {chunks : List String} (hne : chunks ≠ [])
    (hfull : ∀ chunk ∈ chunks.dropLast, chunk.length = size) (hpos : 0 < (chunks.getLast hne).length)
    (hle : (chunks.getLast hne).length ≤ size) : chunkText (String.join chunks) size = chunks := by
  have hps : chunks.map String.toList ≠ [] := mt List.map_eq_nil_iff.1 hne
  have hlast : (chunks.map String.toList).getLast hps = (chunks.getLast hne).toList := List.getLast_map hps
  have hpieces : pieces size (String.join chunks).toList = chunks.map String.toList := by
    rw [String.toList_join, List.flatMap_def]
    refine pieces_flatten hsize hps ?_ ?_ ?_
    · rw [← List.map_dropLast]
      exact List.forall_mem_map.2 fun chunk hchunk => String.length_toList.trans (hfull chunk hchunk)
    · rw [hlast]
      exact List.ne_nil_of_length_pos (String.length_toList.symm ▸ hpos)
    · rw [hlast, String.length_toList]
      exact hle
  have htext : String.join chunks ≠ "" := by
    intro hempty
    rw [hempty, String.toList_empty, pieces] at hpieces
    exact hps hpieces.symm
  rw [chunkText, if_neg (not_or.2 ⟨htext, hsize.ne'⟩), hpieces, List.map_map]
  exact (List.map_congr_left fun chunk _ => String.ofList_toList).trans (List.map_id chunks)

theorem IsCut.eq_chunkText {text : String} {chunks : List String} (h : IsCut text size chunks) :
    chunks = chunkText text size := by
  by_cases hwhole : text = "" ∨ size = 0
  · rw [h.whole hwhole, chunkText, if_pos hwhole]
  · obtain ⟨htext, hsize⟩ := not_or.1 hwhole
    have hpos : 0 < size := Nat.pos_of_ne_zero hsize
    obtain ⟨hlast, hle⟩ := h.last htext hpos
    rw [← h.joined, chunkText_join hpos h.ne_nil (h.full htext hpos) hlast hle]

/-- The chunks of a text are the one list of texts that it is cut into; a size of at least its length gives
one chunk, and so does a size that is not configured. -/
theorem chunkText_cuts (text : String) :
    (∀ size chunks, IsCut text size chunks ↔ chunks = chunkText text size) ∧
      (∀ size, text.length ≤ size → chunkText text size = [text]) ∧
      chunkText text (effectiveSize text none) = [text] := by
  refine ⟨fun size chunks => ⟨IsCut.eq_chunkText, ?_⟩, fun size => chunkText_of_length_le, chunkText_unset text⟩
  rintro rfl
  exact isCut_chunkText text size

example : chunkText "héllo🌍!" 2 = ["hé", "ll", "o🌍", "!"] := by decide +kernel

end ScriptedModel.Stream
