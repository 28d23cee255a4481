/-
How the tokens of one line are read. The end of a line and the indentation of the next are read with a plain
scalar, but before the next token where anything else comes last; what counts is where lines begin, so reading
is followed from the beginning of one line to that of the next.

Main statements: a name and its colon are a key, whatever collections stand open to the right of it; and a scalar
behind it leads to the beginning of the next line.
-/
import ScriptedModel.Proofs.Yaml.Scalar
import ScriptedModel.Yaml.Token

namespace ScriptedModel.Yaml.Token

open Glyph (locate locate_cons locate_lineEnd length_locate)
open Cursor

/-! ## Runs -/

/-- Reading goes on from one place as from another one that comes later, and takes no more steps to it than there
are characters between them. -/
def Reaches (k k' : Cursor) : Prop :=
  ∃ n, (∀ steps, from? (steps + n) k = from? steps k') ∧ n + k'.rest.length ≤ k.rest.length

theorem Reaches.trans {k k' k'' : Cursor} (h : Reaches k k') (h' : Reaches k' k'') : Reaches k k'' := by
  obtain ⟨n, hn, hle⟩ := h
  obtain ⟨n', hn', hle'⟩ := h'
  exact ⟨n' + n, fun steps => by rw [← Nat.add_assoc, hn, hn'], by omega⟩

theorem from?_congr {k k' : Cursor} {g : Glyph} {gs : List Glyph} (hk : k.skipped.rest = g :: gs)
    (hk' : k'.skipped.rest = g :: gs) (h : k.skipped.refreshed? g = k'.skipped.refreshed? g) (steps : Nat) :
    from? steps k = from? steps k' := by
  cases steps with
  | zero => rfl
  | succ steps =>
    rw [from?, from?]
    simp only [hk, hk', h]

/-- A place outside brackets. -/
def place (columns : List Nat) (ts : List Token) (keyAllowed : Bool) (candidate? : Option Candidate)
    (gs : List Glyph) : Cursor :=
  ⟨gs, [candidate?], columns, keyAllowed, ts.toArray⟩

section Place

variable {columns inner outer : List Nat} {ts : List Token} {keyAllowed : Bool} {candidate? : Option Candidate}
  {gs : List Glyph}

theorem inBrackets_place : (place columns ts keyAllowed candidate? gs).inBrackets = false := rfl

theorem refreshed?_place_none (g : Glyph) :
    refreshed? g (place columns ts keyAllowed none gs) = some (place columns ts keyAllowed none gs) := rfl

theorem refreshed?_place_of_isCurrent {g : Glyph} {c : Candidate} (h : isCurrent g c = true) :
    refreshed? g (place columns ts keyAllowed (some c) gs) = some (place columns ts keyAllowed (some c) gs) := by
  simp only [refreshed?, place, List.mapM_cons, List.mapM_nil, h, if_true]
  rfl

/-- What began on another line is forgotten. -/
theorem refreshed?_place_of_line {g : Glyph} {c : Candidate} (hline : c.line ≠ g.line)
    (hrequired : c.required = false) :
    refreshed? g (place columns ts keyAllowed (some c) gs) = some (place columns ts keyAllowed none gs) := by
  simp only [refreshed?, place, List.mapM_cons, List.mapM_nil, isCurrent, hline, hrequired, decide_false,
    Bool.false_and, Bool.false_eq_true, if_false]
  rfl

/-- The collections to the right of a column are closed, from the innermost to the outermost of them. -/
theorem closedTo_place {column : Nat} (hinner : ∀ i ∈ inner, column < i) (houter : ∀ o ∈ outer.head?, o ≤ column) :
    closedTo (some column) (place (inner ++ outer) ts keyAllowed candidate? gs) =
      place outer (ts ++ inner.map fun _ => .close) keyAllowed candidate? gs := by
  have hdrop : outer.dropWhile (fun c => decide (column < c)) = outer ∧
      outer.takeWhile (fun c => decide (column < c)) = [] := by
    cases outer with
    | nil => exact ⟨rfl, rfl⟩
    | cons o outer =>
      have ho : ¬ column < o := Nat.not_lt.2 (houter o rfl)
      rw [List.dropWhile_cons_of_neg (by simpa using ho), List.takeWhile_cons_of_neg (by simpa using ho)]
      exact ⟨rfl, rfl⟩
  have hall : ∀ i ∈ inner, decide (column < i) = true := fun i hi => decide_eq_true (hinner i hi)
  rw [closedTo]
  simp only [inBrackets, place, List.tail_cons, List.isEmpty_nil, Option.all_some, Bool.false_eq_true,
    not_true_eq_false, if_false, decide_false]
  rw [List.takeWhile_append_of_pos hall, List.dropWhile_append_of_pos hall, hdrop.1, hdrop.2, List.append_nil]
  rw [List.toArray_appendList]

theorem push_place (t : Token) (keyAllowed' : Bool) (rest : List Glyph) :
    (place columns ts keyAllowed candidate? gs).push t keyAllowed' rest =
      place columns (ts ++ [t]) keyAllowed' candidate? rest := by
  simp only [push, place, List.push_toArray]

theorem skipped_place (columns : List Nat) (ts : List Token) (candidate? : Option Candidate) {keyAllowed' : Bool}
    {gs' : List Glyph} (h : skip false false keyAllowed gs = (keyAllowed', gs')) :
    (place columns ts keyAllowed candidate? gs).skipped = place columns ts keyAllowed' candidate? gs' := by
  rw [skipped, inBrackets_place]
  simp only [place, h]

section Step

variable {keyAllowed' : Bool} {candidate?' : Option Candidate} {g : Glyph} {gs' : List Glyph} {k k' : Cursor}

/-- One token is read, after the ends of the collections that stand to the right of it. -/
theorem reaches_closing (inner outer : List Nat) (hskip : skip false false keyAllowed gs = (keyAllowed', g :: gs'))
    (hrefresh : refreshed? g (place (inner ++ outer) ts keyAllowed' candidate? (g :: gs')) =
      some (place (inner ++ outer) ts keyAllowed' candidate?' (g :: gs')))
    (hmark : g.char ≠ endMark) (hinner : ∀ i ∈ inner, g.column < i) (houter : ∀ o ∈ outer.head?, o ≤ g.column)
    (hnext : next? (place outer (ts ++ inner.map fun _ => .close) keyAllowed' candidate?' (g :: gs')) g gs' = some k)
    (hsame : ∀ steps, from? steps k = from? steps k') (hshort : k'.rest.length < gs.length) :
    Reaches (place (inner ++ outer) ts keyAllowed candidate? gs) k' := by
  refine ⟨1, fun steps => ?_, by rw [Nat.add_comm]; exact hshort⟩
  have hclosed : closedTo (some g.column) (place (inner ++ outer) ts keyAllowed' candidate?' (g :: gs')) =
      place outer (ts ++ inner.map fun _ => .close) keyAllowed' candidate?' (g :: gs') := closedTo_place hinner houter
  rw [from?, skipped_place _ _ _ hskip]
  simp only [place] at hrefresh hclosed hnext ⊢
  simp only [hrefresh, if_neg hmark]
  rw [hclosed, hnext, Option.bind_some, hsame]

/-- One token is read, and no collection stands to the right of it. -/
theorem reaches_next (hskip : skip false false keyAllowed gs = (keyAllowed', g :: gs'))
    (hrefresh : refreshed? g (place columns ts keyAllowed' candidate? (g :: gs')) =
      some (place columns ts keyAllowed' candidate?' (g :: gs')))
    (hmark : g.char ≠ endMark) (hcolumn : ∀ o ∈ columns.head?, o ≤ g.column)
    (hnext : next? (place columns ts keyAllowed' candidate?' (g :: gs')) g gs' = some k)
    (hsame : ∀ steps, from? steps k = from? steps k') (hshort : k'.rest.length < gs.length) :
    Reaches (place columns ts keyAllowed candidate? gs) k' := by
  have hnone : ∀ i ∈ ([] : List Nat), g.column < i := fun _ h => absurd h List.not_mem_nil
  refine reaches_closing [] columns hskip hrefresh hmark hnone hcolumn ?_ hsame hshort
  rwa [List.map_nil, List.append_nil]

end Step

end Place

/-! ## Tokens -/

theorem skip_spaces (keyAllowed : Bool) (i line column : Nat) (cs : List Char) :
    skip false false keyAllowed (locate line column (List.replicate i ' ' ++ cs)) =
      skip false false keyAllowed (locate line (column + i) cs) := by
  induction i generalizing column with
  | zero => rfl
  | succ i ih =>
    rw [List.replicate_succ, List.cons_append, locate_cons rfl, skip]
    show skip false false keyAllowed _ = _
    rw [ih, Nat.add_assoc, Nat.add_comm 1]

theorem skip_label {c : Char} (h : isLabelChar c = true) (keyAllowed : Bool) (line column : Nat) (gs : List Glyph) :
    skip false false keyAllowed (⟨c, line, column⟩ :: gs) = (keyAllowed, ⟨c, line, column⟩ :: gs) := by
  simp only [skip, Scalar.isBreak_of_isLabelChar h, ne_of_isLabelChar h (d := ' ') rfl,
    ne_of_isLabelChar h (d := '\t') rfl, ne_of_isLabelChar h (d := '\ufeff') rfl, ne_of_isLabelChar h (d := '#') rfl,
    Bool.false_and, Bool.or_self, decide_false, Bool.false_eq_true, if_false]

/-- A letter or a digit is none of the characters that begin anything but a plain scalar. -/
theorem next?_of_isAlphanum {c : Char} (h : c.isAlphanum = true) (k : Cursor) (line column : Nat) (gs : List Glyph) :
    next? k ⟨c, line, column⟩ gs = plain? k ⟨c, line, column⟩ gs := by
  have hne {d : Char} (hd : d.isAlphanum = false) : c ≠ d := ne_of_isAlphanum h hd
  have hunusable : unusable.contains c = false := by
    rw [List.contains_eq_mem, decide_eq_false_iff_not]
    intro hmem
    have hall : unusable.all (fun d => !d.isAlphanum) = true := rfl
    exact hne (Bool.not_eq_true' _ ▸ List.all_eq_true.1 hall c hmem) rfl
  simp only [next?, Glyph.isTriple_eq_false (.inr (hne (d := '-') rfl)),
    Glyph.isTriple_eq_false (.inr (hne (d := '.') rfl)), hne (d := '%') rfl, hne (d := '[') rfl, hne (d := '\x7b') rfl,
    hne (d := ']') rfl, hne (d := '\x7d') rfl, hne (d := ',') rfl, hne (d := '-') rfl, hne (d := '?') rfl,
    hne (d := ':') rfl, hne (d := '*') rfl, hne (d := '&') rfl, hne (d := '!') rfl, hne (d := '|') rfl,
    hne (d := '>') rfl, hne (d := '\'') rfl, hne (d := '"') rfl, hunusable, false_and, Bool.false_eq_true, if_false]

section Within

variable {line column : Nat} (hcolumn : column ≠ 0) (k : Cursor) {gs : List Glyph}

include hcolumn

theorem next?_colon (h : isSeparator (Glyph.next gs) = true) :
    next? k ⟨':', line, column⟩ gs = value? k ⟨':', line, column⟩ gs := by
  simp only [next?, Glyph.isTriple_eq_false (.inl hcolumn), h, or_true, and_true]
  rfl

theorem next?_hyphen (h : isSeparator (Glyph.next gs) = true) :
    next? k ⟨'-', line, column⟩ gs = indicator? k ⟨'-', line, column⟩ .openList .entry true gs := by
  simp only [next?, Glyph.isTriple_eq_false (.inl hcolumn), h]
  rfl

theorem next?_quote : next? k ⟨'\'', line, column⟩ gs = quoted? k ⟨'\'', line, column⟩ Quoted.single? gs := by
  simp only [next?, Glyph.isTriple_eq_false (.inl hcolumn)]
  rfl

theorem next?_openBracket : next? k ⟨'[', line, column⟩ gs = openFlow? k ⟨'[', line, column⟩ .openBracket gs := by
  simp only [next?, Glyph.isTriple_eq_false (.inl hcolumn)]
  rfl

theorem next?_closeBracket : next? k ⟨']', line, column⟩ gs = closeFlow? k .closeBracket gs := by
  simp only [next?, Glyph.isTriple_eq_false (.inl hcolumn)]
  rfl

end Within

/-! ## Names -/

section Names

variable {columns inner outer : List Nat} {ts : List Token} {keyAllowed : Bool} {candidate? : Option Candidate}
  {gs : List Glyph}

theorem withKey?_place (g : Glyph) : withKey? g (place columns ts true none gs) =
    some (place columns ts true (some ⟨g.line, g.column, ts.length, columns.head? = some g.column⟩) gs) := by
  have hkey : withoutKey? (place columns ts true none gs) = some (place columns ts true none gs) := rfl
  have hallowed : (place columns ts true none gs).keyAllowed = true := rfl
  rw [withKey?, if_pos hallowed, hkey]
  simp only [Option.bind_eq_bind, Option.bind_some, inBrackets_place, Bool.false_eq_true, not_false_eq_true, true_and]
  rfl

/-- A plain scalar, and the candidate that it may turn out to be. -/
theorem plain?_place {g : Glyph} {gs' : List Glyph} {p : Plain}
    (hkey : withKey? g (place columns ts keyAllowed none gs) = some (place columns ts keyAllowed candidate? gs))
    (hread : Plain.readFrom? false (columns.head?.elim 0 (· + 1)) .none [] (g :: gs') = some p) :
    plain? (place columns ts keyAllowed none gs) g gs' =
      some (place columns (ts ++ [.scalar .plain (String.ofList p.text)]) p.broken candidate? p.rest) := by
  rw [plain?, hkey]
  show (Plain.readFrom? false (columns.head?.elim 0 (· + 1)) .none [] (g :: gs')).bind _ = _
  rw [hread]
  show some (push _ _ _ _) = _
  rw [push_place]

theorem insertIdx_append {α : Type} (us vs : List α) (a : α) : (us ++ vs).insertIdx us.length a = us ++ a :: vs := by
  induction us with
  | nil => rfl
  | cons u us ih =>
    rw [List.cons_append, List.length_cons, List.insertIdx_succ_cons, ih]
    rfl

theorem openedAt_place (column number : Nat) (t : Token) :
    openedAt column number t (place columns ts keyAllowed candidate? gs) =
      if columns.head?.all (· < column) then place (column :: columns) (ts.insertIdx number t) keyAllowed candidate? gs
      else place columns ts keyAllowed candidate? gs := by
  simp only [openedAt, inBrackets_place, Bool.false_eq_true, not_false_eq_true, true_and]
  simp only [place, List.insertIdxIfInBounds_toArray]

/-- What a key brings with it: a record is opened at its column, if none was. -/
def opening (column : Nat) (outer : List Nat) : List Token × List Nat :=
  if outer.head?.all (· < column) then ([.openRecord], column :: outer) else ([], outer)

theorem keyed_place (us : List Token) (line column : Nat) (required : Bool) :
    keyed ⟨line, column, ts.length, required⟩ (place outer (ts ++ us) keyAllowed candidate? gs) =
      place (opening column outer).2 (ts ++ (opening column outer).1 ++ .key :: us) keyAllowed none gs := by
  have hkey : keyed ⟨line, column, ts.length, required⟩ (place outer (ts ++ us) keyAllowed candidate? gs) =
      openedAt column ts.length .openRecord (place outer (ts ++ .key :: us) keyAllowed none gs) := by
    simp only [keyed, place, List.insertIdxIfInBounds_toArray, insertIdx_append, List.tail_cons]
  rw [hkey, openedAt_place, opening]
  split
  · simp only [insertIdx_append, List.append_assoc, List.singleton_append]
  · simp only [List.append_nil]

/-- The name of a member or a section, which may turn out to be a key. -/
theorem reaches_label (inner outer : List Nat) (ts : List Token) (n : Name) {d : Char} (hd : isSeparator d = true)
    (r : List Char) {column : Nat} (hinner : ∀ i ∈ inner, column < i) (houter : ∀ o ∈ outer.head?, o ≤ column)
    (line : Nat) : Reaches
      (place (inner ++ outer) ts true none (locate line 0 (List.replicate column ' ' ++ n.chars ++ ':' :: d :: r)))
      (place outer (ts ++ inner.map (fun _ => .close) ++ [n.token]) false
        (some ⟨line, column, (ts ++ inner.map fun _ => Token.close).length, outer.head? = some column⟩)
        (locate line (column + n.chars.length) (':' :: d :: r))) := by
  obtain ⟨c, cs, hchars, hc, -⟩ := n.label.exists_cons
  have hlabel := isLabelChar_of_isAlphanum hc
  have hlocate : locate line column (n.chars ++ ':' :: d :: r) =
      ⟨c, line, column⟩ :: locate line (column + 1) (cs ++ ':' :: d :: r) := by
    rw [hchars, List.cons_append, locate_cons (Scalar.isBreak_of_isLabelChar hlabel)]
  have hskip : skip false false true (locate line 0 (List.replicate column ' ' ++ n.chars ++ ':' :: d :: r)) =
      (true, ⟨c, line, column⟩ :: locate line (column + 1) (cs ++ ':' :: d :: r)) := by
    rw [List.append_assoc, skip_spaces, Nat.zero_add, hlocate, skip_label hlabel]
  refine reaches_closing inner outer hskip (refreshed?_place_none _) (ne_of_isLabelChar hlabel rfl) hinner houter ?_
    (fun _ => rfl) ?_
  · have hread := Plain.readFrom?_label (outer.head?.elim 0 (· + 1)) line n.label.all column [] (':' :: d :: r)
    rw [Plain.readFrom?_colon _ _ hd, List.append_nil, List.reverse_reverse, hlocate] at hread
    rw [next?_of_isAlphanum hc, plain?_place (withKey?_place _) hread]
    rfl
  · simp only [place, length_locate, List.length_append, hchars, List.length_cons]
    omega

/-- The colon that makes a key of what stands before it on the line. -/
theorem reaches_colon (outer : List Nat) (ts us : List Token) (required : Bool) {d : Char} (hd : isSeparator d = true)
    (r : List Char) {column length : Nat} (houter : ∀ o ∈ outer.head?, o ≤ column) (hne : column + length ≠ 0)
    (hlength : length ≤ keyLength) (line : Nat) :
    Reaches (place outer (ts ++ us) false (some ⟨line, column, ts.length, required⟩)
        (locate line (column + length) (':' :: d :: r)))
      (place (opening column outer).2 (ts ++ (opening column outer).1 ++ .key :: us ++ [.value]) false none
        (locate line (column + length + 1) (d :: r))) := by
  have hcurrent : isCurrent ⟨':', line, column + length⟩ ⟨line, column, ts.length, required⟩ = true := by
    rw [isCurrent, Bool.and_eq_true]
    exact ⟨decide_eq_true rfl, decide_eq_true (Nat.add_le_add_left hlength column)⟩
  have hskip : skip false false false (locate line (column + length) (':' :: d :: r)) =
      (false, ⟨':', line, column + length⟩ :: locate line (column + length + 1) (d :: r)) := rfl
  refine reaches_next hskip (refreshed?_place_of_isCurrent hcurrent) (by decide : ':' ≠ endMark)
    (fun o ho => Nat.le_add_right_of_le (houter o ho)) ?_ (fun _ => rfl) ?_
  · have hapart : isSeparator (Glyph.next (locate line (column + length + 1) (d :: r))) = true := hd
    rw [next?_colon hne _ hapart]
    show some ((keyed _ (place outer (ts ++ us) _ _ _)).push _ _ _) = _
    rw [keyed_place, push_place]
  · simp only [place, length_locate, List.length_cons]
    omega

/-- A name and the colon behind it. -/
theorem reaches_name (inner outer : List Nat) (ts : List Token) (n : Name) {d : Char} (hd : isSeparator d = true)
    (r : List Char) {column : Nat} (hinner : ∀ i ∈ inner, column < i) (houter : ∀ o ∈ outer.head?, o ≤ column)
    (line : Nat) : Reaches
      (place (inner ++ outer) ts true none (locate line 0 (List.replicate column ' ' ++ n.chars ++ ':' :: d :: r)))
      (place (opening column outer).2
        (ts ++ inner.map (fun _ => .close) ++ (opening column outer).1 ++ [.key, n.token, .value]) false none
        (locate line (column + n.chars.length + 1) (d :: r))) := by
  have hne : column + n.chars.length ≠ 0 := by
    obtain ⟨c, cs, hchars, -, -⟩ := n.label.exists_cons
    rw [hchars, List.length_cons]
    omega
  have hcolon := reaches_colon outer (ts ++ inner.map fun _ => .close) [n.token] (outer.head? = some column) hd r
    houter hne n.length_le line
  rw [List.append_assoc _ [Token.key, n.token]] at hcolon
  exact (reaches_label inner outer ts n hd r hinner houter line).trans hcolon

end Names

/-! ## Lines -/

/-- What is there where a line begins: the columns of the collections, the tokens so far and the further lines. -/
structure Margin where
  columns : List Nat
  tokens : List Token
  rest : List Char

/-- The cursor at the beginning of a line with this margin. -/
def Margin.cursor (m : Margin) (line : Nat) : Cursor := place m.columns m.tokens true none (locate line 0 m.rest)

section Lines

variable {columns : List Nat} {ts : List Token} {keyAllowed : Bool} {candidate? : Option Candidate} {gs : List Glyph}
  {least line column : Nat} {r : List Char}

/-- Where a line begins there is something on it to read, or the end of the text. -/
theorem exists_skip (h : IsOutdented least r) (line : Nat) :
    ∃ g gs, skip false false true (locate line 0 r) = (true, g :: gs) ∧ g.line = line := by
  obtain ⟨i, r, rfl, -, hfirst⟩ := h
  rw [skip_spaces, Nat.zero_add]
  cases r with
  | nil => exact ⟨⟨endMark, line, i⟩, [], rfl, rfl⟩
  | cons c r =>
    rw [locate_cons (Scalar.isBreak_of_isLabelChar hfirst)]
    exact ⟨⟨c, line, i⟩, _, skip_label hfirst true line i _, rfl⟩

/-- Where a line begins nothing on the lines before it can be a key any more. -/
theorem from?_margin (hr : IsOutdented least r)
    (hskip : skip false false keyAllowed gs = skip false false true (locate line 0 r))
    (hcandidate : ∀ c ∈ candidate?, c.line < line ∧ c.required = false) (steps : Nat) :
    from? steps (place columns ts keyAllowed candidate? gs) = from? steps (Margin.cursor ⟨columns, ts, r⟩ line) := by
  obtain ⟨g, gs', hmargin, hline⟩ := exists_skip hr line
  have hplace := skipped_place columns ts candidate? (hskip.trans hmargin)
  have hcursor : (Margin.cursor ⟨columns, ts, r⟩ line).skipped = _ := skipped_place columns ts none hmargin
  have hrest : (place columns ts keyAllowed candidate? gs).skipped.rest = g :: gs' := hplace ▸ rfl
  have hrest' : (Margin.cursor ⟨columns, ts, r⟩ line).skipped.rest = g :: gs' := hcursor ▸ rfl
  refine from?_congr hrest hrest' ?_ steps
  rw [hplace, hcursor]
  cases candidate? with
  | none => rfl
  | some c =>
    obtain ⟨hbefore, hrequired⟩ := hcandidate c rfl
    rw [refreshed?_place_of_line (by omega) hrequired, refreshed?_place_none]

theorem exists_candidate (ts : List Token) (keyAllowed : Bool) (g : Glyph) (gs : List Glyph)
    (hcolumn : columns.head? ≠ some g.column) : ∃ c?,
    withKey? g (place columns ts keyAllowed none gs) = some (place columns ts keyAllowed c? gs) ∧
      ∀ c ∈ c?, c.line = g.line ∧ c.required = false := by
  cases keyAllowed with
  | false => exact ⟨none, rfl, fun _ h => nomatch h⟩
  | true =>
    refine ⟨_, withKey?_place g, fun c hc => ?_⟩
    cases hc
    exact ⟨rfl, decide_eq_false hcolumn⟩

/-- A token behind a blank and the end of its line, wherever reading stops between them. -/
theorem reaches_lineEnd {keyAllowed' : Bool} {c : Char} {cs : List Char} {gs' : List Glyph} {t : Token}
    (hlocate : locate line (column + 1) cs = ⟨c, line, column + 1⟩ :: gs)
    (hskip : skip false false keyAllowed (⟨c, line, column + 1⟩ :: gs) = (keyAllowed, ⟨c, line, column + 1⟩ :: gs))
    (hmark : c ≠ endMark) (hcolumn : ∀ o ∈ columns.head?, o ≤ column)
    (hnext : next? (place columns ts keyAllowed none (⟨c, line, column + 1⟩ :: gs)) ⟨c, line, column + 1⟩ gs =
      some (place columns (ts ++ [t]) keyAllowed' candidate? gs'))
    (hcandidate : ∀ c ∈ candidate?, c.line = line ∧ c.required = false) (hr : IsOutdented least r)
    (hend : skip false false keyAllowed' gs' = skip false false true (locate (line + 1) 0 r))
    (hshort : r.length ≤ cs.length) :
    Reaches (place columns ts keyAllowed none (locate line column (' ' :: cs)))
      (Margin.cursor ⟨columns, ts ++ [t], r⟩ (line + 1)) := by
  have hblank : skip false false keyAllowed (locate line column (' ' :: cs)) =
      skip false false keyAllowed (locate line (column + 1) cs) := skip_spaces keyAllowed 1 line column cs
  have hbefore : ∀ c ∈ candidate?, c.line < line + 1 ∧ c.required = false := fun c hc =>
    ⟨Nat.lt_succ_of_le (Nat.le_of_eq (hcandidate c hc).1), (hcandidate c hc).2⟩
  refine reaches_next (hblank.trans (hlocate ▸ hskip)) (refreshed?_place_none _) hmark
    (fun o ho => Nat.le_succ_of_le (hcolumn o ho)) hnext (from?_margin hr hend hbefore) ?_
  simp only [Margin.cursor, place, length_locate, List.length_cons]
  omega

/-- A scalar behind a blank, to the end of its line. -/
theorem reaches_atom (a : Atom) (hcolumn : ∀ o ∈ columns.head?, o ≤ column)
    (hr : IsOutdented (columns.head?.elim 0 (· + 1)) r) :
    Reaches (place columns ts keyAllowed none (locate line column (' ' :: (a.chars ++ '\n' :: r))))
      (Margin.cursor ⟨columns, ts ++ [a.token], r⟩ (line + 1)) := by
  have hhead : columns.head? ≠ some (column + 1) := fun h => absurd (hcolumn _ h) (by omega)
  have hshort : r.length ≤ (a.chars ++ '\n' :: r).length := by
    rw [List.length_append, List.length_cons]
    omega
  cases a with
  | plain cs h =>
    obtain ⟨c, cs', hcs, hc, -⟩ := h.exists_cons
    have hlabel := isLabelChar_of_isAlphanum hc
    have hlocate : locate line (column + 1) (cs ++ '\n' :: r) =
        ⟨c, line, column + 1⟩ :: locate line (column + 1 + 1) (cs' ++ '\n' :: r) := by
      rw [hcs, List.cons_append, locate_cons (Scalar.isBreak_of_isLabelChar hlabel)]
    obtain ⟨i, r', hread, hrest⟩ := Plain.readFrom?_lineEnd line hr (column + 1 + cs.length) (cs.reverse ++ [])
    rw [← Plain.readFrom?_label _ _ h.all, List.append_nil, List.reverse_reverse, hlocate] at hread
    obtain ⟨c?, hkey, hcandidate⟩ := exists_candidate ts keyAllowed ⟨c, line, column + 1⟩
      (locate line (column + 1) (cs ++ '\n' :: r)) hhead
    rw [hlocate] at hkey
    have hnext := (next?_of_isAlphanum hc _ line (column + 1) _).trans (plain?_place hkey hread)
    -- The blanks that the next line begins with are read with the scalar, so it ends in the middle of that line.
    refine reaches_lineEnd hlocate (skip_label hlabel keyAllowed _ _ _) (ne_of_isLabelChar hlabel rfl) hcolumn hnext
      hcandidate hr ?_ hshort
    show skip false false true (locate (line + 1) i r') = _
    rw [hrest, skip_spaces, Nat.zero_add]
  | quoted cs h =>
    have hlocate : locate line (column + 1) ('\'' :: (cs ++ ['\'']) ++ '\n' :: r) =
        ⟨'\'', line, column + 1⟩ :: locate line (column + 1 + 1) (cs ++ '\'' :: '\n' :: r) := by
      rw [List.cons_append, locate_cons rfl, List.append_assoc, List.singleton_append]
    obtain ⟨c?, hkey, hcandidate⟩ := exists_candidate ts keyAllowed ⟨'\'', line, column + 1⟩
      (⟨'\'', line, column + 1⟩ :: locate line (column + 1 + 1) (cs ++ '\'' :: '\n' :: r)) hhead
    have hnext : next? (place columns ts keyAllowed none
        (⟨'\'', line, column + 1⟩ :: locate line (column + 1 + 1) (cs ++ '\'' :: '\n' :: r))) ⟨'\'', line, column + 1⟩
        (locate line (column + 1 + 1) (cs ++ '\'' :: '\n' :: r)) =
          some (place columns (ts ++ [.scalar .quoted (String.ofList cs)]) false c?
            (locate line (column + 1 + 1 + cs.length + 1) ('\n' :: r))) := by
      rw [next?_quote (Nat.succ_ne_zero column), quoted?, hkey]
      show (Quoted.singleFrom? .none [] _).bind _ = _
      rw [Quoted.singleFrom?_label h (Nat.succ_ne_zero _)]
      show some (push _ _ _ _) = _
      rw [push_place]
      rfl
    exact reaches_lineEnd hlocate rfl (by decide) hcolumn hnext hcandidate hr rfl hshort

/-- The end of a line that a token was read on before. -/
theorem reaches_margin (hr : IsOutdented least r) :
    Reaches (place columns ts false none (locate line column ('\n' :: r)))
      (Margin.cursor ⟨columns, ts, r⟩ (line + 1)) := by
  refine ⟨0, from?_margin hr rfl nofun, ?_⟩
  simp only [Margin.cursor, place, length_locate, List.length_cons]
  omega

/-- A list of nothing. -/
theorem reaches_brackets (hcolumn : ∀ o ∈ columns.head?, o ≤ column) (hr : IsOutdented least r) :
    Reaches (place columns ts false none (locate line column (' ' :: '[' :: ']' :: '\n' :: r)))
      (Margin.cursor ⟨columns, ts ++ [.openBracket, .closeBracket], r⟩ (line + 1)) := by
  let inside : Cursor := { place columns (ts ++ [.openBracket]) true none
    (locate line (column + 2) (']' :: '\n' :: r)) with candidates := [none, none] }
  let after := place columns (ts ++ [.openBracket, .closeBracket]) false none (locate line (column + 3) ('\n' :: r))
  have hopen : Reaches (place columns ts false none (locate line column (' ' :: '[' :: ']' :: '\n' :: r))) inside := by
    refine reaches_next (g := ⟨'[', line, column + 1⟩) rfl (refreshed?_place_none _) (by decide : '[' ≠ endMark)
      (fun o ho => Nat.le_succ_of_le (hcolumn o ho)) ?_ (fun _ => rfl) ?_
    · rw [next?_openBracket (Nat.succ_ne_zero column)]
      show some { push (place columns ts false none _) _ _ _ with candidates := [none, none] } = _
      rw [push_place]
      rfl
    · simp only [inside, place, length_locate, List.length_cons]
      omega
  have hclose : Reaches inside after := by
    refine ⟨1, fun steps => ?_, ?_⟩
    · show (next? inside ⟨']', line, column + 2⟩ _).bind _ = _
      rw [next?_closeBracket (Nat.succ_ne_zero _)]
      show from? steps { push inside _ _ _ with candidates := [none] } = _
      simp only [inside, place, push, List.push_toArray, List.append_assoc]
      rfl
    · simp only [inside, after, place, length_locate, List.length_cons]
      omega
  exact (hopen.trans hclose).trans (reaches_margin hr)

end Lines

end ScriptedModel.Yaml.Token
