/-
The tree that the tokens of an outline spell. The list of a member is still open when the next key comes, or the
end of the section, and is closed by it; so what is read is said of the tokens that follow, too.

Main statement: an outline is read as its tree.
-/
import ScriptedModel.Proofs.Yaml.Tokens
import ScriptedModel.Yaml.Document

namespace ScriptedModel.Yaml.Document

/-! ## States -/

/-- A state in which nothing was said of the next node, and no node is an anchor. -/
def state (frames : List Frame) (root? : Option Node) : State :=
  ⟨commonHandles, frames.map (none, ·), .none, 0, [], [], root?⟩

/-- Between sections, of which the last is first. -/
def amongSections (ss : List (Node × Node)) : State :=
  state [.members false ss (.member true), .document false] none

/-- Between the members of a section, at one of the stages of a member. -/
def amongMembers (ss : List (Node × Node)) (name : Node) (ms : List (Node × Node)) (stage : Stage) : State :=
  state [.members false ms stage, .members false ss (.value name), .document false] none

/-- Between the entries of the list of a member. -/
def amongEntries (ss : List (Node × Node)) (name : Node) (ms : List (Node × Node)) (key : Node) (ns : List Node) :
    State :=
  state [.entries true ns false, .members false ms (.value key), .members false ss (.value name), .document false] none

/-- Tokens before which a list ends that no token closes. -/
def EndsList (ts : List Token) : Prop := ∃ t r, ts = t :: r ∧ (t = .key ∨ t = .close)

variable {ts : List Token} {ss ms : List (Node × Node)} {name key : Node}

/-! ## Members -/

theorem foldlM_entries (as : List Atom) (ns : List Node) :
    (as.flatMap Atom.entryTokens ++ ts).foldlM State.step? (amongEntries ss name ms key ns) =
      ts.foldlM State.step? (amongEntries ss name ms key ((as.map Atom.node).reverse ++ ns)) := by
  induction as generalizing ns with
  | nil => rfl
  | cons a as ih =>
    rw [List.map_cons, List.reverse_cons, List.append_assoc, ← List.singleton_append (x := a.node), ← ih]
    cases a <;> rfl

/-- The list of a member is closed by what comes behind it, and not by a token of its own. -/
theorem foldlM_list (h : EndsList ts) (ns : List Node) :
    ts.foldlM State.step? (amongEntries ss name ms key ns) =
      ts.foldlM State.step? (amongMembers ss name ((key, .list ns.reverse) :: ms) (.member true)) := by
  obtain ⟨t, r, rfl, rfl | rfl⟩ := h <;> rfl

theorem foldlM_content (c : Content) (h : EndsList ts) :
    (c.tokens ++ ts).foldlM State.step? (amongMembers ss name ms (.value key)) =
      ts.foldlM State.step? (amongMembers ss name ((key, c.node) :: ms) (.member true)) := by
  match c with
  | .scalar a => cases a <;> rfl
  | .list [] => rfl
  | .list (a :: as) =>
    have hfirst : ((Content.list (a :: as)).tokens ++ ts).foldlM State.step? (amongMembers ss name ms (.value key)) =
        (as.flatMap Atom.entryTokens ++ ts).foldlM State.step? (amongEntries ss name ms key [a.node]) := by
      cases a <;> rfl
    rw [hfirst, foldlM_entries, foldlM_list h, List.reverse_append, List.reverse_reverse]
    rfl

theorem foldlM_members (members : List Member) (h : EndsList ts) :
    (members.flatMap Member.tokens ++ ts).foldlM State.step? (amongMembers ss name ms (.member true)) =
      ts.foldlM State.step? (amongMembers ss name ((members.map Member.pair).reverse ++ ms) (.member true)) := by
  induction members generalizing ms with
  | nil => rfl
  | cons m members ih =>
    have hrest : EndsList (members.flatMap Member.tokens ++ ts) := by
      cases members with
      | nil => exact h
      | cons m members => exact ⟨_, _, rfl, .inl rfl⟩
    have hname : ((m :: members).flatMap Member.tokens ++ ts).foldlM State.step?
        (amongMembers ss name ms (.member true)) =
          (m.content.tokens ++ (members.flatMap Member.tokens ++ ts)).foldlM State.step?
            (amongMembers ss name ms (.value m.name.node)) := by
      rw [List.flatMap_cons, List.append_assoc]
      rfl
    rw [hname, foldlM_content m.content hrest, ih, List.map_cons, List.reverse_cons, List.append_assoc]
    rfl

/-! ## Sections -/

theorem foldlM_section (s : Section) :
    (s.tokens ++ .close :: ts).foldlM State.step? (amongSections ss) =
      ts.foldlM State.step? (amongSections (s.pair :: ss)) := by
  have hname : (s.tokens ++ .close :: ts).foldlM State.step? (amongSections ss) =
      (s.members.flatMap Member.tokens ++ .close :: ts).foldlM State.step?
        (amongMembers ss s.name.node [] (.member true)) := rfl
  have hclose : (Token.close :: ts).foldlM State.step?
      (amongMembers ss s.name.node (s.members.map Member.pair).reverse (.member true)) =
        ts.foldlM State.step?
          (amongSections ((s.name.node, .record (s.members.map Member.pair).reverse.reverse) :: ss)) := rfl
  rw [hname, foldlM_members s.members ⟨_, _, rfl, .inr rfl⟩, List.append_nil, hclose, List.reverse_reverse]
  rfl

theorem foldlM_sections (s : Section) (sections : List Section) :
    (s.tokens ++ sections.flatMap (fun s => .close :: s.tokens) ++ .close :: ts).foldlM State.step? (amongSections ss) =
      ts.foldlM State.step? (amongSections (((s :: sections).map Section.pair).reverse ++ ss)) := by
  induction sections generalizing s ss with
  | nil =>
    rw [List.flatMap_nil, List.append_nil, foldlM_section]
    rfl
  | cons s' sections ih =>
    rw [List.flatMap_cons, List.append_assoc, List.append_assoc, List.cons_append, foldlM_section,
      ← List.append_assoc, ih]
    simp only [List.map_cons, List.reverse_cons, List.append_assoc, List.cons_append, List.nil_append]

/-! ## Aliases -/

/-- Whether a token names no node and stands for none that is named. -/
def isNameless : Token → Bool
  | .anchor _ | .alias _ => false
  | _ => true

theorem numbersFrom?_of_isNameless {ts : List Token} (h : ts.all isNameless = true) (names : Anchor.Names) :
    Anchor.numbersFrom? names ts = some ([], []) := by
  induction ts with
  | nil => rfl
  | cons t ts ih =>
    rw [List.all_cons, Bool.and_eq_true] at h
    rw [Anchor.numbersFrom?, ih h.2]
    · rintro name rfl
      cases h.1
    · rintro name rfl
      cases h.1

theorem isNameless_content (c : Content) : c.tokens.all isNameless = true := by
  match c with
  | .scalar a => rfl
  | .list [] => rfl
  | .list (a :: as) =>
    rw [Content.tokens, List.all_flatMap, List.all_eq_true]
    exact fun _ _ => rfl

theorem isNameless_section (s : Section) : s.tokens.all isNameless = true := by
  have hmembers : (s.members.flatMap Member.tokens).all isNameless = true := by
    rw [List.all_flatMap, List.all_eq_true]
    exact fun m _ => isNameless_content m.content
  exact hmembers

theorem isNameless_outline (o : Outline) : o.tokens.all isNameless = true := by
  have hmore : (o.more.flatMap fun s => .close :: s.tokens).all isNameless = true := by
    rw [List.all_flatMap, List.all_eq_true]
    exact fun s _ => isNameless_section s
  rw [Outline.tokens, List.all_append, List.all_append, List.all_cons, isNameless_section, hmore]
  rfl

/-! ## Outlines -/

/-- An outline is read as its tree. -/
theorem ofText?_outline (o : Outline) : ofText? (String.ofList o.chars) = some ⟨o.node, []⟩ := by
  have htargets : Anchor.targets? o.tokens = some [] := by
    rw [Anchor.targets?, numbersFrom?_of_isNameless (isNameless_outline o)]
    rfl
  have hrun : o.tokens.foldlM State.step? (state [.document false] none) = some (state [] (some o.node)) := by
    have hopen : o.tokens.foldlM State.step? (state [.document false] none) =
        (o.first.tokens ++ o.more.flatMap (fun s => Token.close :: s.tokens) ++ [Token.close, Token.close]).foldlM
          State.step? (amongSections []) := rfl
    have hclose : [Token.close].foldlM State.step? (amongSections (o.sections.map Section.pair).reverse) =
        some (state [] (some (.record (o.sections.map Section.pair).reverse.reverse))) := rfl
    rw [hopen, foldlM_sections, List.append_nil]
    exact hclose.trans (by rw [List.reverse_reverse]; rfl)
  rw [ofText?, Token.ofText?_outline]
  show bodyOf? commonHandles false o.tokens = _
  rw [bodyOf?, htargets]
  show (o.tokens.foldlM State.step? (state [.document false] none)).bind _ = _
  rw [hrun]
  rfl

end ScriptedModel.Yaml.Document
