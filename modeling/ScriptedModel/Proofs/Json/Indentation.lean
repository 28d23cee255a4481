/-
Indented text spells what compact text spells: only blanks are between the tokens.

Main statement: the indented text of a value spells the document of the value, so it is read as that.
-/
import ScriptedModel.Proofs.Json.Writing

namespace ScriptedModel.Json

theorem blanks_newLine (depth : Nat) : Blanks (newLine depth) := by
  intro c hc
  rcases List.mem_cons.1 hc with rfl | hc
  · exact .inr (.inr (.inl rfl))
  · exact .inl (List.eq_of_mem_replicate hc)

theorem blanks_space : Blanks [' '] := fun _ hc => .inl (List.mem_singleton.1 hc)

/-- A document with blanks before it. -/
theorem Spells.after {d : Document} {before cs : List Char} (hb : Blanks before) (h : Spells d cs) :
    Spells d (before ++ cs) := by
  have hblanks := Derives.blanks hb h blanks_nil
  rwa [List.append_nil] at hblanks

/-- A document with blanks after it. -/
theorem Spells.before {d : Document} {cs after : List Char} (h : Spells d cs) (ha : Blanks after) :
    Spells d (cs ++ after) := .blanks blanks_nil h ha

/-- A name in quotes, on a line of its own. -/
theorem spellsName_newLine (depth : Nat) (k : String) : SpellsName (Letter.ofText k) (newLine depth ++ quote k) :=
  .mk (blanks_newLine depth) (spells_quote k) blanks_nil

mutual

/-- The indented text of a value spells its document, at whatever depth it stands. -/
theorem Value.spells_writeIndented : ∀ (depth : Nat) (v : Value), Spells v.document (v.writeIndented depth)
  | _, .null => .null
  | _, .bool true => .true
  | _, .bool false => .false
  | _, .number n => .number (spells_number n)
  | _, .string s => .string (spells_quote s)
  | _, .array [] => .emptyArray blanks_nil
  | depth, .array (v :: vs) => by
    have hfirst := (v.spells_writeIndented (depth + 1)).after (blanks_newLine (depth + 1))
    obtain ⟨es, hes, hd⟩ := derives_itemsIndented depth vs hfirst
    show Derives _ ('[' :: (newLine (depth + 1) ++ v.writeIndented (depth + 1) ++ writeItemsIndented depth vs))
    rw [hes]
    exact .array hd
  | _, .object [] => .emptyObject blanks_nil
  | depth, .object ((k, v) :: ms) => by
    have hfirst := (v.spells_writeIndented (depth + 1)).after blanks_space
    obtain ⟨es, hes, hd⟩ := derives_membersIndented depth ms (spellsName_newLine (depth + 1) k) hfirst
    rw [List.append_assoc] at hes
    show Derives _ ('{' :: (newLine (depth + 1) ++ quote k ++ ':' :: ' ' ::
      (v.writeIndented (depth + 1) ++ writeMembersIndented depth ms)))
    rw [List.append_assoc]
    exact hes ▸ .object hd

/-- The items after a first one, and the closing bracket on a line of its own. -/
theorem derives_itemsIndented : ∀ (depth : Nat) (vs : List Value) {d : Document} {cs : List Char}, Spells d cs →
    ∃ es, cs ++ writeItemsIndented depth vs = es ++ [']'] ∧ Derives (.items (d :: itemDocuments vs)) es
  | depth, [], _, cs, h =>
    ⟨cs ++ newLine depth, by rw [writeItemsIndented, List.append_assoc], .item (h.before (blanks_newLine depth))⟩
  | depth, v :: vs, _, cs, h => by
    have hnext := (v.spells_writeIndented (depth + 1)).after (blanks_newLine (depth + 1))
    obtain ⟨es, hes, hd⟩ := derives_itemsIndented depth vs hnext
    refine ⟨cs ++ ',' :: es, ?_, .moreItems h hd⟩
    rw [writeItemsIndented, hes, List.append_assoc]
    rfl

/-- The members after a first one, and the closing brace on a line of its own. -/
theorem derives_membersIndented : ∀ (depth : Nat) (ms : List (String × Value)) {ls : List Letter} {d : Document}
    {ns cs : List Char}, SpellsName ls ns → Spells d cs →
      ∃ es, ns ++ ':' :: (cs ++ writeMembersIndented depth ms) = es ++ ['}'] ∧
        Derives (.members ((ls, d) :: memberDocuments ms)) es
  | depth, [], _, _, ns, cs, hn, h => by
    refine ⟨ns ++ ':' :: (cs ++ newLine depth), ?_, .member hn (h.before (blanks_newLine depth))⟩
    rw [writeMembersIndented]
    simp only [List.append_assoc, List.cons_append]
  | depth, (k, v) :: ms, _, _, ns, cs, hn, h => by
    have hnext := (v.spells_writeIndented (depth + 1)).after blanks_space
    obtain ⟨es, hes, hd⟩ := derives_membersIndented depth ms (spellsName_newLine (depth + 1) k) hnext
    refine ⟨ns ++ ':' :: (cs ++ ',' :: es), ?_, .moreMembers hn h hd⟩
    have htext : ns ++ ':' :: (cs ++ ',' :: (newLine (depth + 1) ++ quote k ++ ':' :: ([' '] ++
        v.writeIndented (depth + 1) ++ writeMembersIndented depth ms))) = ns ++ ':' :: (cs ++ ',' :: (es ++ ['}'])) := by
      rw [hes]
    rw [writeMembersIndented]
    simp only [List.append_assoc, List.cons_append, List.nil_append] at htext ⊢
    exact htext

end

/-- What is written with indentation is read as the document of the value. -/
theorem Value.ofSource?_indented (v : Value) : Document.ofSource? (sourceOf v.indented) = some v.document := by
  rw [sourceOf, indented, String.toList_ofList]
  exact Document.ofSource?_of_spells (v.spells_writeIndented 0)

end ScriptedModel.Json
