/-
How an outline is cut into tokens: its entries, members and sections one after the other, each from the
beginning of its first line to the beginning of the line after it. The record of a section is open from its
first member on, and closed before the next section.

Main statement: an outline is cut into its tokens.
-/
import ScriptedModel.Proofs.Yaml.Lines

namespace ScriptedModel.Yaml.Token

open Glyph (locate length_locate)

/-- Reading goes on from the beginning of one line as from that of a later one. -/
def Leads (m m' : Margin) : Prop := ∀ line, ∃ line', Reaches (m.cursor line) (m'.cursor line')

theorem Leads.refl (m : Margin) : Leads m m := fun line => ⟨line, 0, fun _ => rfl, by omega⟩

theorem Leads.trans {m m' m'' : Margin} (h : Leads m m') (h' : Leads m' m'') : Leads m m'' := by
  intro line
  obtain ⟨line', hline⟩ := h line
  obtain ⟨line'', hline'⟩ := h' line'
  exact ⟨line'', hline.trans hline'⟩

/-! ## Lines to the left -/

variable {r : List Char} {ts : List Token}

theorem isOutdented_entries (hr : IsOutdented 3 r) (as : List Atom) :
    IsOutdented 3 (as.flatMap Atom.entryChars ++ r) := by
  cases as with
  | nil => exact hr
  | cons a as => exact ⟨2, _, rfl, by omega, rfl⟩

theorem isOutdented_members (hr : IsOutdented 3 r) (ms : List Member) :
    IsOutdented 3 (ms.flatMap Member.chars ++ r) := by
  cases ms with
  | nil => exact hr
  | cons m ms =>
    refine ⟨2, m.name.chars ++ (':' :: m.content.chars ++ (ms.flatMap Member.chars ++ r)), ?_, by omega,
      m.name.label.head?_append _⟩
    rw [List.flatMap_cons, Member.chars]
    simp only [List.append_assoc]
    rfl

theorem isOutdented_sections (ss : List Section) : IsOutdented 1 (ss.flatMap Section.chars) := by
  cases ss with
  | nil => exact ⟨0, [], rfl, by omega, rfl⟩
  | cons s ss =>
    refine ⟨0, s.chars ++ ss.flatMap Section.chars, rfl, by omega, ?_⟩
    rw [Section.chars, List.append_assoc, List.append_assoc]
    exact s.name.label.head?_append _

/-! ## Members -/

/-- The columns of the collections inside a section. The entries of a list open none of their own. -/
def within : List Nat := [2, 0]

theorem leads_entries (ts : List Token) (hr : IsOutdented 3 r) (as : List Atom) :
    Leads ⟨within, ts, as.flatMap Atom.entryChars ++ r⟩ ⟨within, ts ++ as.flatMap Atom.entryTokens, r⟩ := by
  induction as generalizing ts with
  | nil =>
    rw [List.flatMap_nil, List.flatMap_nil, List.nil_append, List.append_nil]
    exact .refl _
  | cons a as ih =>
    have hrest := isOutdented_entries hr as
    have hentry (line : Nat) : Reaches (Margin.cursor ⟨within, ts, (a :: as).flatMap Atom.entryChars ++ r⟩ line)
        (place within (ts ++ [.entry]) true none
          (locate line 3 (' ' :: (a.chars ++ '\n' :: (as.flatMap Atom.entryChars ++ r))))) := by
      have hchars : (a :: as).flatMap Atom.entryChars ++ r =
          ' ' :: ' ' :: '-' :: ' ' :: (a.chars ++ '\n' :: (as.flatMap Atom.entryChars ++ r)) := by
        rw [List.flatMap_cons, Atom.entryChars, List.append_assoc, List.append_assoc, List.append_assoc]
        rfl
      rw [Margin.cursor, hchars]
      refine reaches_next (g := ⟨'-', line, 2⟩) rfl (refreshed?_place_none _) (by decide : '-' ≠ endMark)
        (fun o ho => by cases ho; exact Nat.le_refl 2) ?_ (fun _ => rfl) ?_
      · rw [next?_hyphen (by decide) _ rfl]
        show some ((place within ts true none _).push _ _ _) = _
        rw [push_place]
        rfl
      · simp only [place, length_locate, List.length_cons]
        omega
    have hatom : Leads ⟨within, ts, (a :: as).flatMap Atom.entryChars ++ r⟩
        ⟨within, ts ++ [.entry] ++ [a.token], as.flatMap Atom.entryChars ++ r⟩ := fun line =>
      ⟨line + 1, (hentry line).trans (reaches_atom a (fun o ho => by cases ho; omega) hrest)⟩
    have hmore := ih (ts ++ [.entry] ++ [a.token])
    rw [List.append_assoc, List.append_assoc] at hmore
    exact hatom.trans (by rwa [List.append_assoc])

theorem exists_reaches_content (ts : List Token) (c : Content) (hr : IsOutdented 3 r) (line : Nat) {column : Nat}
    (hcolumn : 2 ≤ column) : ∃ line',
    Reaches (place within ts false none (locate line column (c.chars ++ r)))
      (Margin.cursor ⟨within, ts ++ c.tokens, r⟩ line') := by
  have hwithin : ∀ o ∈ within.head?, o ≤ column := fun o ho => by
    cases ho
    exact hcolumn
  match c with
  | .scalar a =>
    refine ⟨line + 1, ?_⟩
    rw [Content.chars, List.cons_append, List.append_assoc, List.singleton_append]
    exact reaches_atom a hwithin hr
  | .list [] => exact ⟨line + 1, reaches_brackets hwithin hr⟩
  | .list (a :: as) =>
    obtain ⟨line', hentries⟩ := leads_entries ts hr (a :: as) (line + 1)
    refine ⟨line', ?_⟩
    rw [Content.chars, List.cons_append]
    exact (reaches_margin (isOutdented_entries hr (a :: as))).trans hentries

theorem Content.exists_cons (c : Content) : ∃ d cs, c.chars = d :: cs ∧ isSeparator d = true := by
  match c with
  | .scalar a => exact ⟨_, _, rfl, rfl⟩
  | .list [] => exact ⟨_, _, rfl, rfl⟩
  | .list (a :: as) => exact ⟨_, _, rfl, rfl⟩

/-- A member, which opens the record of its section if it is the first one. -/
theorem leads_member (ts : List Token) (m : Member) (hr : IsOutdented 3 r) {columns : List Nat}
    (hcolumns : ∀ o ∈ columns.head?, o ≤ 2) (hopening : (opening 2 columns).2 = within) :
    Leads ⟨columns, ts, m.chars ++ r⟩ ⟨within, ts ++ (opening 2 columns).1 ++ m.tokens, r⟩ := by
  intro line
  obtain ⟨d, cs, hcontent, hd⟩ := Content.exists_cons m.content
  have hname := reaches_name [] columns ts m.name hd (cs ++ r) (fun _ h => absurd h List.not_mem_nil) hcolumns line
  have hbehind : 2 ≤ 2 + m.name.chars.length + 1 := by omega
  obtain ⟨line', hrest⟩ := exists_reaches_content (ts ++ (opening 2 columns).1 ++ [.key, m.name.token, .value])
    m.content hr line hbehind
  refine ⟨line', ?_⟩
  rw [hopening, List.map_nil, List.append_nil, ← List.cons_append, ← hcontent] at hname
  have hchars : List.replicate 2 ' ' ++ m.name.chars ++ ':' :: (m.content.chars ++ r) = m.chars ++ r := by
    rw [Member.chars, List.append_assoc _ _ r]
    rfl
  rw [hchars] at hname
  rw [List.append_assoc _ [Token.key, _, _]] at hrest
  exact hname.trans hrest

theorem leads_members (ts : List Token) (hr : IsOutdented 3 r) (ms : List Member) :
    Leads ⟨within, ts, ms.flatMap Member.chars ++ r⟩ ⟨within, ts ++ ms.flatMap Member.tokens, r⟩ := by
  induction ms generalizing ts with
  | nil =>
    rw [List.flatMap_nil, List.flatMap_nil, List.nil_append, List.append_nil]
    exact .refl _
  | cons m ms ih =>
    have hcolumns : ∀ o ∈ within.head?, o ≤ 2 := fun o ho => by
      cases ho
      exact Nat.le_refl 2
    have hfirst := leads_member ts m (isOutdented_members hr ms) hcolumns rfl
    rw [List.flatMap_cons, List.flatMap_cons, List.append_assoc, ← List.append_assoc ts]
    refine hfirst.trans ?_
    rw [show (opening 2 within).1 = [] from rfl, List.append_nil]
    exact ih _

/-! ## Sections -/

/-- A section, before which the record of the one before it is closed, and with the first of which the record of
all of them is opened. -/
theorem leads_section (inner outer : List Nat) (ts : List Token) (s : Section) (hr : IsOutdented 3 r)
    (hinner : ∀ i ∈ inner, 0 < i) (houter : ∀ o ∈ outer.head?, o ≤ 0) (hopening : (opening 0 outer).2 = [0]) :
    Leads ⟨inner ++ outer, ts, s.chars ++ r⟩
      ⟨within, ts ++ inner.map (fun _ => .close) ++ (opening 0 outer).1 ++ s.tokens, r⟩ := by
  let before := ts ++ inner.map (fun _ => Token.close) ++ (opening 0 outer).1 ++ [.key, s.name.token, .value]
  have hname : Leads ⟨inner ++ outer, ts, s.chars ++ r⟩ ⟨[0], before, s.members.flatMap Member.chars ++ r⟩ := by
    intro line
    have hreach := reaches_name inner outer ts s.name (d := '\n') rfl (s.members.flatMap Member.chars ++ r) hinner
      houter line
    have hchars : List.replicate 0 ' ' ++ s.name.chars ++ ':' :: '\n' :: (s.members.flatMap Member.chars ++ r) =
        s.chars ++ r := by
      simp only [Section.chars, List.append_assoc]
      rfl
    rw [hopening, hchars] at hreach
    exact ⟨line + 1, hreach.trans (reaches_margin (isOutdented_members hr s.members))⟩
  have hfirst : Leads ⟨[0], before, s.members.flatMap Member.chars ++ r⟩
      ⟨within, before ++ [.openRecord] ++ s.first.tokens, s.more.flatMap Member.chars ++ r⟩ := by
    rw [Section.members, List.flatMap_cons, List.append_assoc]
    exact leads_member _ s.first (isOutdented_members hr s.more) (fun o ho => by cases ho; omega) rfl
  have htokens : before ++ [.openRecord] ++ s.first.tokens ++ s.more.flatMap Member.tokens =
      ts ++ inner.map (fun _ => .close) ++ (opening 0 outer).1 ++ s.tokens := by
    simp only [before, Section.tokens, Section.members, List.flatMap_cons, List.append_assoc, List.cons_append,
      List.nil_append]
  exact htokens ▸ (hname.trans hfirst).trans (leads_members _ hr s.more)

theorem leads_sections (ts : List Token) (ss : List Section) :
    Leads ⟨within, ts, ss.flatMap Section.chars⟩ ⟨within, ts ++ ss.flatMap (fun s => .close :: s.tokens), []⟩ := by
  induction ss generalizing ts with
  | nil =>
    rw [List.flatMap_nil, List.flatMap_nil, List.append_nil]
    exact .refl _
  | cons s ss ih =>
    have hfirst := leads_section [2] [0] ts s ((isOutdented_sections ss).mono (by omega))
      (fun i hi => by rw [List.mem_singleton.1 hi]; omega) (fun o ho => by cases ho; omega) rfl
    have hmore := ih (ts ++ .close :: s.tokens)
    have htokens : ts ++ [2].map (fun _ => Token.close) ++ (opening 0 [0]).1 ++ s.tokens = ts ++ .close :: s.tokens := by
      rw [show (opening 0 [0]).1 = [] from rfl, List.append_nil, List.append_assoc]
      rfl
    rw [htokens] at hfirst
    rw [List.append_assoc] at hmore
    exact hfirst.trans hmore

/-- At the end of the text all collections are closed. -/
theorem from?_end (steps line : Nat) :
    from? (steps + 1) (Margin.cursor ⟨within, ts, []⟩ line) = some (ts ++ [.close, .close]) := by
  show some ((place within ts true none (locate line 0 [])).closedTo none).tokens.toList = _
  show some (ts.toArray ++ [Token.close, Token.close]).toList = _
  rw [Array.toList_appendList]

/-- An outline is cut into its tokens. -/
theorem ofText?_outline (o : Outline) : ofText? (String.ofList o.chars) = some o.tokens := by
  have hfirst := leads_section [] [] [] o.first ((isOutdented_sections o.more).mono (by omega))
    (fun _ h => absurd h List.not_mem_nil) (fun _ h => nomatch h) rfl
  obtain ⟨line, n, hrun, hlength⟩ := (hfirst.trans (leads_sections _ o.more)) 0
  have hinitial : Margin.cursor ⟨[], [], o.chars⟩ 0 = .initial (locate 0 0 o.chars) := rfl
  have hchars : o.first.chars ++ o.more.flatMap Section.chars = o.chars := rfl
  rw [hchars] at hrun hlength
  obtain ⟨steps, hsteps⟩ : ∃ steps, (locate 0 0 o.chars).length = steps + 1 + n := by
    refine ⟨(locate 0 0 o.chars).length - 1 - n, ?_⟩
    simp only [Margin.cursor, place, length_locate, List.length_nil] at hlength ⊢
    omega
  rw [ofText?, Glyph.ofText?_ofList o.all_isOwn]
  show from? (locate 0 0 o.chars).length (.initial (locate 0 0 o.chars)) = _
  rw [hsteps, ← hinitial]
  refine (hrun (steps + 1)).trans ((from?_end steps line).trans (congrArg some ?_))
  simp only [Outline.tokens, List.append_assoc]
  rfl

end ScriptedModel.Yaml.Token
