/-
An account of all tokens before the end of input. The parser takes tokens in segments: the end of a
line, a token that it skips, a statement with its operands, or a statement that it abandons before an
invalid token, with the operands that were read until then.

Main statement: tokens are divided into such segments in exactly one way, up to the end of input or to
the first faulty keyword. Each token has one fate, and the commands and the log are what the segments
say, in their order: nothing is dropped without an event and nothing is told twice.
-/
import Mathlib.Data.List.Forall2
import ScriptedModel.CommandLine.Run
import ScriptedModel.Proofs.Script.Window

namespace ScriptedModel.Script

/-! ## Operands -/

/-- The operands that parameters take of tokens, by the tokens after them, and the parameter that lacks one,
if one does. -/
inductive Takes (after : List Token) : List Param → List Token → Option Param → Prop
  | all : Takes after [] [] none
  | lacking {param : Param} {more : List Param} (hnext : ∀ t ∈ after.head?, param.kind.admits t.kind = false) :
    Takes after (param :: more) [] (some param)
  | operand {param : Param} {params : List Param} {t : Token} {operands : List Token} {lacking : Option Param}
    (ht : param.kind.admits t.kind = true) (h : Takes after params operands lacking) :
    Takes after (param :: params) (t :: operands) lacking

/-- The warnings about the operands after a keyword. -/
def Keyword.warnings (k : Keyword) (operands : List Token) : List Diagnostic :=
  (k.params.zip operands).filterMap fun x => k.warning? x.1 x.2.kind

/-- The event that a warning becomes: the keyword, the parameter, the operand and the bound that it is taken
for. -/
def warningEvent? : Diagnostic → Option Logging.Event
  | .clamped k param value bound => some ⟨.warn, CommandLine.parserTarget, "Operand outside catalog bounds, clamping",
      [("directive", k.name), ("param", param), ("value", Numeral.decimal value), ("clamped", Numeral.decimal bound)]⟩
  | _ => none

/-! ## Segments -/

/-- What becomes of a token. -/
inductive Fate
  | passed
  | skipped
  | completed (statement : Statement)
  | abandoned (keyword : Keyword)
  | consumed
  deriving DecidableEq, Repr

/-- The fates that a token may have. -/
inductive Fate.Suits : Fate → Token.Kind → Prop
  | lineEnd : Suits .passed .newline
  | invalid {text : String} : Suits .skipped (.invalid text)
  | strayString {text : String} : Suits .skipped (.string text)
  | strayNumber {n : Nat} : Suits .skipped (.number n)
  | completed {k : Keyword} {operands : List Token.Kind} {s : Statement} (h : k.statement? operands = some s) :
    Suits (.completed s) (.keyword k)
  | abandoned {k : Keyword} : Suits (.abandoned k) (.keyword k)
  | string {text : String} : Suits .consumed (.string text)
  | number {n : Nat} : Suits .consumed (.number n)

/-- The event that tells of a token and its fate. -/
def Fate.event? (t : Token) : Fate → Option Logging.Event
  | .skipped => some ⟨.debug, CommandLine.parserTarget, "Skipping " ++ t.kind.describe, Diagnostic.fields.place t.position⟩
  | .abandoned k => some ⟨.debug, CommandLine.parserTarget, "Abandoning " ++ k.name ++ " statement at invalid operand",
      Diagnostic.fields.place t.position⟩
  | _ => none

/-- The statement that a token with this fate begins. -/
def Fate.statement? : Fate → Option Statement
  | .completed s => some s
  | _ => none

/-- Tokens that the parser takes together. -/
inductive Segment
  | lineEnd (token : Token)
  | skipped (token : Token)
  | statement (keyword : Keyword) (position : Position) (operands : List Token) (statement : Statement)
  | abandoned (keyword : Keyword) (position : Position) (operands : List Token)

namespace Segment

/-- The tokens of a segment, each with its fate. -/
def fates : Segment → List (Token × Fate)
  | lineEnd t => [(t, .passed)]
  | skipped t => [(t, .skipped)]
  | statement k p operands s => (⟨.keyword k, p⟩, .completed s) :: operands.map (·, .consumed)
  | abandoned k p operands => (⟨.keyword k, p⟩, .abandoned k) :: operands.map (·, .consumed)

/-- The tokens of a segment. -/
def tokens (s : Segment) : List Token := s.fates.map Prod.fst

@[simp] theorem tokens_statement (k : Keyword) (p : Position) (operands : List Token) (s : Statement) :
    (statement k p operands s).tokens = ⟨.keyword k, p⟩ :: operands := by
  simp [tokens, fates, Function.comp_def]

@[simp] theorem tokens_abandoned (k : Keyword) (p : Position) (operands : List Token) :
    (abandoned k p operands).tokens = ⟨.keyword k, p⟩ :: operands := by
  simp [tokens, fates, Function.comp_def]

theorem tokens_ne_nil (s : Segment) : s.tokens ≠ [] := by
  cases s <;> exact List.cons_ne_nil _ _

/-- The warnings about the operands of a segment. -/
def warnings : Segment → List Diagnostic
  | statement k _ operands _ => k.warnings operands
  | abandoned k _ operands => k.warnings operands
  | _ => []

/-- What the parser remarks on a segment. -/
def remarks : Segment → List Diagnostic
  | lineEnd _ => []
  | skipped t => [.skipped t]
  | statement k _ operands _ => k.warnings operands
  | abandoned k p operands => k.warnings operands ++ [.abandoned k p]

/-- The statement of a segment, if it is complete. -/
def statement? : Segment → Option Statement
  | statement _ _ _ s => some s
  | _ => none

/-- What is read of a segment. -/
def entries (s : Segment) : List Entry := s.remarks.map .remark ++ s.statement?.toList.map .statement

end Segment

/-- The tokens of segments in order, each with its fate. -/
def ledger (ss : List Segment) : List (Token × Fate) := ss.flatMap Segment.fates

/-- The segments that there are, by the tokens after them. -/
inductive IsSegment (after : List Token) : Segment → Prop
  | lineEnd {t : Token} (h : Fate.passed.Suits t.kind) : IsSegment after (.lineEnd t)
  | skipped {t : Token} (h : Fate.skipped.Suits t.kind) : IsSegment after (.skipped t)
  | statement {k : Keyword} {p : Position} {operands : List Token} {s : Statement}
    (htakes : Takes after k.params operands none) (hs : k.statement? (operands.map Token.kind) = some s) :
    IsSegment after (.statement k p operands s)
  | abandoned {k : Keyword} {p : Position} {operands : List Token} {param : Param}
    (htakes : Takes after k.params operands (some param)) {text : String}
    (hnext : after.head?.map Token.kind = some (.invalid text)) : IsSegment after (.abandoned k p operands)

/-- The ways to divide tokens into segments, one after another, up to a rest. -/
inductive Divides (rest : List Token) : List Token → List Segment → Prop
  | nil : Divides rest rest []
  | cons {s : Segment} {ss : List Segment} {ts : List Token} (h : IsSegment ts s) (hs : Divides rest ts ss) :
    Divides rest (s.tokens ++ ts) (s :: ss)

/-- The tokens that end the reading, with the last warnings and the fault. A faulty keyword has the operands
before the one that it lacks, and only its fault tells of it. -/
inductive Ends : List Token → List Diagnostic → Option ParseError → Prop
  | exhausted : Ends [] [] none
  | endOfInput {p : Position} {ts : List Token} : Ends (⟨.endOfInput, p⟩ :: ts) [] none
  | faulty {k : Keyword} {p : Position} {operands ts : List Token} {param : Param}
    (htakes : Takes ts k.params operands (some param)) (hnext : ∀ text, ts.head?.map Token.kind ≠ some (.invalid text)) :
    Ends (⟨.keyword k, p⟩ :: (operands ++ ts)) (k.warnings operands)
      (some ⟨(ts.head?.map Token.position).getD .nowhere, k.complaint operands.length⟩)

/-- What the commands and the log of tokens have to be when they are divided into segments and end in some
way. -/
structure IsAccount (ts : List Token) (ss : List Segment) (rest : List Token) (warned : List Diagnostic)
    (fault? : Option ParseError) : Prop where
  covers : ts = (ledger ss).map Prod.fst ++ rest
  whole : fault? = none → (ledger ss).map Prod.fst = Window.body ts
  suits : ∀ x ∈ ledger ss, x.2.Suits x.1.kind
  parsed : parse ts =
    fault?.elim (.ok (commandsFrom .unset ((ledger ss).filterMap fun x => x.2.statement?))) .error
  log : (Parser.readTokens ts).diagnostics = ss.flatMap Segment.remarks ++ warned
  events : ((Parser.readTokens ts).diagnostics.map CommandLine.event).filter (fun e => e.level = .debug) =
    (ledger ss).filterMap fun x => x.2.event? x.1
  warnings : (Parser.readTokens ts).diagnostics.filter (fun d => d.level = .warn) =
    ss.flatMap Segment.warnings ++ warned
  warningEvents : ((Parser.readTokens ts).diagnostics.map CommandLine.event).filter (fun e => e.level = .warn) =
    (ss.flatMap Segment.warnings ++ warned).filterMap warningEvent?
  caused : ∀ before k p operands after, ss = before ++ .abandoned k p operands :: after →
    ∃ text q later, after = .skipped ⟨.invalid text, q⟩ :: later ∧
      (Parser.readTokens ts).diagnostics = before.flatMap Segment.remarks ++ k.warnings operands ++
        .abandoned k p :: .skipped ⟨.invalid text, q⟩ :: (later.flatMap Segment.remarks ++ warned)

/-! ## Reading operands -/

namespace Parser

section Operands

variable {k : Keyword} (p : Position) {operands : List Token}

theorem map_warnings (k : Keyword) (operands : List Token) : (k.warnings operands).map Entry.remark =
    (k.params.zip operands).flatMap fun x => (k.warning? x.1 x.2.kind).toList.map .remark := by
  rw [Keyword.warnings, List.filterMap_eq_flatMap_toList, List.map_flatMap]

/-- Before an operand that it lacks, a keyword has taken the others, with their warnings. -/
theorem exists_pending {after : List Token} {param : Param} (h : Takes after k.params operands (some param)) :
    ∃ w : Pending, w.keyword = k ∧ w.complaint = k.complaint operands.length ∧
      (∀ t ∈ after.head?, w.take t.kind = none) ∧
      read (.reading p (.ofKeyword k)) (operands ++ after) =
        (read (.reading p w) after).after ((k.warnings operands).map .remark) := by
  generalize hparams : k.params = params at h
  cases h with
  | lacking hnext =>
    refine ⟨.ofKeyword k, by cases k <;> rfl, by cases k <;> rfl, ?_, ?_⟩
    · rintro ⟨kind, q⟩ ht
      have hkind := hnext _ ht
      cases k <;> cases hparams <;> cases kind <;> first | rfl | cases hkind
    · rw [Keyword.warnings, List.zip_nil_right]
      rfl
  | @operand _ _ t _ _ hfirst h =>
    obtain ⟨kind, q⟩ := t
    -- With one operand taken and another lacking, the keyword is one that wants two.
    cases k with
    | toolCall =>
      cases hparams
      cases h with
      | operand _ h => cases h
      | lacking hnext =>
        cases kind with
        | string toolName =>
          refine ⟨.toolCallNamed toolName, rfl, rfl, ?_, rfl⟩
          rintro ⟨kind, r⟩ ht
          have hkind := hnext _ ht
          cases kind <;> first | rfl | cases hkind
        | _ => cases hfirst
    | randomLatency =>
      cases hparams
      cases h with
      | operand _ h => cases h
      | lacking hnext =>
        cases kind with
        | number n =>
          refine ⟨.randomLatencyFrom (min n 10000), rfl, rfl, ?_, ?_⟩
          · rintro ⟨kind, r⟩ ht
            have hkind := hnext _ ht
            cases kind <;> first | rfl | cases hkind
          · rw [List.singleton_append, read, Pending.ofKeyword]
            simp [take_randomLatency, map_warnings, Keyword.params]
        | _ => cases hfirst
    | _ => cases hparams; cases h

/-- All its operands complete a keyword. -/
theorem read_operands {s : Statement} (h : k.statement? (operands.map Token.kind) = some s) (rest : List Token) :
    read (.reading p (.ofKeyword k)) (operands ++ rest) =
      (read .idle rest).after ((k.warnings operands).map .remark ++ [.statement s]) := by
  rw [map_warnings]
  unfold Keyword.statement? at h
  split at h
  case h_1 content hkinds =>
    obtain ⟨⟨kind, q⟩, rfl, rfl⟩ := List.map_eq_singleton_iff.1 hkinds
    cases h
    rfl
  case h_2 toolName arguments hkinds =>
    obtain ⟨⟨kind, q⟩, ts, rfl, rfl, hkinds'⟩ := List.map_eq_cons_iff.1 hkinds
    obtain ⟨⟨kind, r⟩, rfl, rfl⟩ := List.map_eq_singleton_iff.1 hkinds'
    cases h
    rfl
  case h_3 n hkinds =>
    obtain ⟨⟨kind, q⟩, rfl, rfl⟩ := List.map_eq_singleton_iff.1 hkinds
    cases h
    rw [List.singleton_append, read, Pending.ofKeyword]
    simp [take_chunkSize, Keyword.params]
  case h_4 n hkinds =>
    obtain ⟨⟨kind, q⟩, rfl, rfl⟩ := List.map_eq_singleton_iff.1 hkinds
    cases h
    rw [List.singleton_append, read, Pending.ofKeyword]
    simp [take_chunkLatency, Keyword.params]
  case h_5 a b hkinds =>
    obtain ⟨⟨kind, q⟩, ts, rfl, rfl, hkinds'⟩ := List.map_eq_cons_iff.1 hkinds
    obtain ⟨⟨kind, r⟩, rfl, rfl⟩ := List.map_eq_singleton_iff.1 hkinds'
    cases h
    rw [List.cons_append, List.singleton_append, read, Pending.ofKeyword]
    simp only [take_randomLatency, read, take_randomLatencyFrom]
    simp [Reading.after, Keyword.params]
  case h_6 => cases h

end Operands

/-! ## Reading segments -/

theorem read_segment {after : List Token} {s : Segment} (h : IsSegment after s) :
    read .idle (s.tokens ++ after) = (read .idle after).after s.entries := by
  cases h with
  | @lineEnd t h =>
    obtain ⟨kind, p⟩ := t
    cases h
    rfl
  | @skipped t h =>
    obtain ⟨kind, p⟩ := t
    cases h <;> rfl
  | @statement k p operands s htakes hs =>
    rw [Segment.tokens_statement]
    exact read_operands p hs after
  | @abandoned k p operands param htakes text hnext =>
    obtain ⟨w, hkeyword, -, -, hread⟩ := exists_pending p htakes
    obtain ⟨⟨kind, q⟩, hhead, rfl⟩ := Option.map_eq_some_iff.1 hnext
    obtain ⟨later, rfl⟩ := List.head?_eq_some_iff.1 hhead
    rw [Segment.tokens_abandoned]
    refine hread.trans ?_
    simp [read, hkeyword, after_after, Segment.entries, Segment.remarks, Segment.statement?]

theorem read_divides {ts rest : List Token} {ss : List Segment} (h : Divides rest ts ss) :
    read .idle ts = (read .idle rest).after (ss.flatMap Segment.entries) := by
  induction h with
  | nil => rfl
  | cons h hs ih => rw [read_segment h, ih, after_after, List.flatMap_cons]

theorem read_ends {rest : List Token} {warned : List Diagnostic} {fault? : Option ParseError}
    (h : Ends rest warned fault?) : read .idle rest = ⟨warned.map .remark, fault?⟩ := by
  cases h with
  | exhausted => rfl
  | endOfInput => rfl
  | @faulty k p operands ts param htakes hnext =>
    obtain ⟨w, -, hcomplaint, htake, hread⟩ := exists_pending p htakes
    refine hread.trans ?_
    rcases ts with _ | ⟨⟨kind, q⟩, ts⟩
    · simp [read, Reading.faulty, Reading.after, hcomplaint]
    · have hnone : w.take kind = none := htake _ rfl
      cases kind with
      | invalid text => exact absurd rfl (hnext text)
      | _ => simp [read, hnone, Reading.faulty, Reading.after, hcomplaint]

end Parser

/-! ## Dividing tokens -/

theorem exists_takes (params : List Param) (ts : List Token) :
    ∃ operands after lacking, ts = operands ++ after ∧ Takes after params operands lacking := by
  induction params generalizing ts with
  | nil => exact ⟨[], ts, none, rfl, .all⟩
  | cons param params ih =>
    rcases ts with _ | ⟨t, ts⟩
    · exact ⟨[], [], some param, rfl, .lacking (by simp)⟩
    by_cases ht : param.kind.admits t.kind = true
    · obtain ⟨operands, after, lacking, rfl, h⟩ := ih ts
      exact ⟨t :: operands, after, lacking, rfl, .operand ht h⟩
    · refine ⟨[], t :: ts, some param, rfl, .lacking ?_⟩
      rintro _ ⟨⟩
      simpa using ht

theorem exists_statement {k : Keyword} {after operands : List Token} (h : Takes after k.params operands none) :
    ∃ s, k.statement? (operands.map Token.kind) = some s := by
  cases k with
  | toolCall | randomLatency =>
    cases h with | @operand _ _ t _ _ ht h =>
    cases h with | @operand _ _ u _ _ hu h =>
    cases h
    obtain ⟨kind, p⟩ := t
    obtain ⟨kind', q⟩ := u
    cases kind <;> cases ht
    cases kind' <;> cases hu
    exact ⟨_, rfl⟩
  | _ =>
    cases h with | @operand _ _ t _ _ ht h =>
    cases h
    obtain ⟨kind, p⟩ := t
    cases kind <;> cases ht
    exact ⟨_, rfl⟩

theorem exists_division (ts : List Token) :
    ∃ ss rest warned fault?, Divides rest ts ss ∧ Ends rest warned fault? := by
  -- A segment has several tokens, so the induction is on the number of tokens left.
  induction h : ts.length using Nat.strongRecOn generalizing ts with
  | _ n ih =>
    subst h
    -- A segment in front of tokens that can be divided makes more tokens that can be.
    have hcons : ∀ s after, IsSegment after s → ts = s.tokens ++ after →
        ∃ ss rest warned fault?, Divides rest ts ss ∧ Ends rest warned fault? := by
      rintro s after hs rfl
      have hlength : after.length < (s.tokens ++ after).length := by
        have hpos := List.length_pos_of_ne_nil s.tokens_ne_nil
        rw [List.length_append]
        omega
      obtain ⟨ss, rest, warned, fault?, hdivides, hends⟩ := ih _ hlength after rfl
      exact ⟨s :: ss, rest, warned, fault?, .cons hs hdivides, hends⟩
    rcases ts with _ | ⟨⟨kind, p⟩, ts⟩
    · exact ⟨[], [], [], none, .nil, .exhausted⟩
    cases kind with
    | endOfInput => exact ⟨[], _, [], none, .nil, .endOfInput⟩
    | newline => exact hcons (.lineEnd ⟨.newline, p⟩) ts (.lineEnd .lineEnd) rfl
    | invalid text => exact hcons (.skipped ⟨.invalid text, p⟩) ts (.skipped .invalid) rfl
    | string text => exact hcons (.skipped ⟨.string text, p⟩) ts (.skipped .strayString) rfl
    | number n => exact hcons (.skipped ⟨.number n, p⟩) ts (.skipped .strayNumber) rfl
    | keyword k =>
      obtain ⟨operands, after, lacking, rfl, htakes⟩ := exists_takes k.params ts
      cases lacking with
      | none =>
        obtain ⟨s, hs⟩ := exists_statement htakes
        exact hcons (.statement k p operands s) after (.statement htakes hs) (by simp)
      | some param =>
        by_cases hnext : ∃ text, after.head?.map Token.kind = some (.invalid text)
        · obtain ⟨text, hnext⟩ := hnext
          exact hcons (.abandoned k p operands) after (.abandoned htakes hnext) (by simp)
        · exact ⟨[], _, _, _, .nil, .faulty htakes fun text h => hnext ⟨text, h⟩⟩

/-! ## One division -/

theorem Takes.unique {after after' operands operands' : List Token} {params : List Param} {lacking lacking' : Option Param}
    (h : Takes after params operands lacking) (h' : Takes after' params operands' lacking')
    (heq : operands ++ after = operands' ++ after') : operands = operands' ∧ after = after' ∧ lacking = lacking' := by
  induction h generalizing operands' lacking' with
  | all =>
    cases h'
    exact ⟨rfl, heq, rfl⟩
  | lacking hnext =>
    cases h' with
    | lacking hnext' => exact ⟨rfl, heq, rfl⟩
    | operand ht h' =>
      rw [List.nil_append] at heq
      subst heq
      rw [hnext _ rfl] at ht
      cases ht
  | operand ht h ih =>
    cases h' with
    | lacking hnext' =>
      rw [List.nil_append] at heq
      subst heq
      rw [hnext' _ rfl] at ht
      cases ht
    | operand ht' h' =>
      obtain ⟨rfl, hrest⟩ := List.cons.inj heq
      obtain ⟨rfl, hafter, hlacking⟩ := ih h' hrest
      exact ⟨rfl, hafter, hlacking⟩

namespace IsSegment

variable {after : List Token} {s : Segment} (h : IsSegment after s)

include h

/-- A segment that begins with a keyword is a statement or abandons one, by what comes after it. -/
theorem of_keyword {k : Keyword} {p : Position} {ts : List Token} (heq : s.tokens ++ after = ⟨.keyword k, p⟩ :: ts) :
    ∃ operands lacking, ts = operands ++ after ∧ Takes after k.params operands lacking ∧
      (lacking = none ∧ (∃ st, k.statement? (operands.map Token.kind) = some st ∧ s = .statement k p operands st) ∨
        (∃ text, after.head?.map Token.kind = some (.invalid text)) ∧ (∃ param, lacking = some param) ∧
          s = .abandoned k p operands) := by
  cases h with
  | lineEnd h => cases heq; cases h
  | skipped h => cases heq; cases h
  | statement htakes hs =>
    rw [Segment.tokens_statement] at heq
    cases heq
    exact ⟨_, _, rfl, htakes, .inl ⟨rfl, _, hs, rfl⟩⟩
  | abandoned htakes hnext =>
    rw [Segment.tokens_abandoned] at heq
    cases heq
    exact ⟨_, _, rfl, htakes, .inr ⟨⟨_, hnext⟩, ⟨_, rfl⟩, rfl⟩⟩

/-- A segment that begins with another token has no more tokens. -/
theorem of_not_keyword {t : Token} {ts : List Token} (heq : s.tokens ++ after = t :: ts) (ht : ∀ k, t.kind ≠ .keyword k) :
    ts = after ∧ t.isEnd = false ∧
      (t.kind = .newline ∧ s = .lineEnd t ∨ t.kind ≠ .newline ∧ s = .skipped t) := by
  cases h with
  | @lineEnd u h =>
    obtain ⟨kind, p⟩ := u
    cases heq
    cases h
    exact ⟨rfl, rfl, .inl ⟨rfl, rfl⟩⟩
  | @skipped u h =>
    obtain ⟨kind, p⟩ := u
    cases heq
    cases h <;> exact ⟨rfl, rfl, .inr ⟨nofun, rfl⟩⟩
  | statement htakes hs =>
    rw [Segment.tokens_statement] at heq
    cases heq
    exact absurd rfl (ht _)
  | abandoned htakes hnext =>
    rw [Segment.tokens_abandoned] at heq
    cases heq
    exact absurd rfl (ht _)

/-- The tokens that there are say which segment comes first. -/
theorem unique {after' : List Token} {s' : Segment} (h' : IsSegment after' s')
    (heq : s.tokens ++ after = s'.tokens ++ after') : s = s' ∧ after = after' := by
  obtain ⟨t, ts, ht⟩ := List.exists_cons_of_ne_nil s.tokens_ne_nil
  have hfirst : s.tokens ++ after = t :: (ts ++ after) := by rw [ht, List.cons_append]
  have hfirst' := heq.symm.trans hfirst
  by_cases hkeyword : ∃ k, t.kind = .keyword k
  · obtain ⟨kind, p⟩ := t
    obtain ⟨k, rfl⟩ := hkeyword
    obtain ⟨operands, lacking, hts, htakes, hs⟩ := h.of_keyword hfirst
    obtain ⟨operands', lacking', hts', htakes', hs'⟩ := h'.of_keyword hfirst'
    obtain ⟨rfl, rfl, rfl⟩ := htakes.unique htakes' (hts.symm.trans hts')
    rcases hs with ⟨rfl, st, hst, rfl⟩ | ⟨-, ⟨param, rfl⟩, rfl⟩
    · obtain ⟨-, st', hst', rfl⟩ | ⟨-, ⟨param, hparam⟩, -⟩ := hs'
      · rw [hst] at hst'
        cases hst'
        exact ⟨rfl, rfl⟩
      · cases hparam
    · obtain ⟨hnone, -⟩ | ⟨-, -, rfl⟩ := hs'
      · cases hnone
      · exact ⟨rfl, rfl⟩
  · have hother : ∀ k, t.kind ≠ .keyword k := fun k hk => hkeyword ⟨k, hk⟩
    obtain ⟨hts, -, hs⟩ := h.of_not_keyword hfirst hother
    obtain ⟨hts', -, hs'⟩ := h'.of_not_keyword hfirst' hother
    refine ⟨?_, hts.symm.trans hts'⟩
    rcases hs with ⟨hline, rfl⟩ | ⟨hline, rfl⟩ <;> rcases hs' with ⟨hline', rfl⟩ | ⟨hline', rfl⟩
    · rfl
    · exact absurd hline hline'
    · exact absurd hline' hline
    · rfl

/-- The tokens of a segment do not end the reading. -/
theorem not_ends {warned : List Diagnostic} {fault? : Option ParseError} :
    ¬ Ends (s.tokens ++ after) warned fault? := by
  intro hends
  generalize heq : s.tokens ++ after = ts at hends
  cases hends with
  | exhausted => exact s.tokens_ne_nil (List.append_eq_nil_iff.1 heq).1
  | endOfInput => cases (h.of_not_keyword heq nofun).2.1
  | faulty htakes hnext =>
    obtain ⟨operands, lacking, hts, htakes', hs⟩ := h.of_keyword heq
    obtain ⟨rfl, rfl, rfl⟩ := htakes.unique htakes' hts
    obtain ⟨hnone, -⟩ | ⟨⟨text, hinvalid⟩, -⟩ := hs
    · cases hnone
    · exact hnext text hinvalid

end IsSegment

theorem Divides.unique {rest rest' ts : List Token} {ss ss' : List Segment} {warned warned' : List Diagnostic}
    {fault? fault?' : Option ParseError} (h : Divides rest ts ss) (hends : Ends rest warned fault?)
    (h' : Divides rest' ts ss') (hends' : Ends rest' warned' fault?') : ss = ss' := by
  induction h generalizing ss' with
  | nil =>
    cases h' with
    | nil => rfl
    | cons hs => exact absurd hends hs.not_ends
  | @cons s ss ts hs h ih =>
    generalize heq : s.tokens ++ ts = us at h'
    cases h' with
    | nil =>
      rw [← heq] at hends'
      exact absurd hends' hs.not_ends
    | cons hs' h' =>
      obtain ⟨rfl, rfl⟩ := hs.unique hs' heq
      rw [ih h']

/-! ## The account -/

theorem suits_of_admits {kind : ParamKind} {token : Token.Kind} (h : kind.admits token = true) :
    Fate.consumed.Suits token := by
  unfold ParamKind.admits at h
  split at h
  · exact .string
  · exact .number
  · cases h

theorem suits_of_takes {after operands : List Token} {params : List Param} {lacking : Option Param}
    (h : Takes after params operands lacking) : ∀ t ∈ operands, Fate.consumed.Suits t.kind := by
  induction h with
  | all => simp
  | lacking => simp
  | operand ht h ih => exact List.forall_mem_cons.2 ⟨suits_of_admits ht, ih⟩

theorem suits_of_isSegment {after : List Token} {s : Segment} (h : IsSegment after s) :
    ∀ x ∈ s.fates, x.2.Suits x.1.kind := by
  cases h with
  | lineEnd h => simpa [Segment.fates] using h
  | skipped h => simpa [Segment.fates] using h
  | statement htakes hs =>
    refine List.forall_mem_cons.2 ⟨.completed hs, ?_⟩
    rintro _ hx
    obtain ⟨t, ht, rfl⟩ := List.mem_map.1 hx
    exact suits_of_takes htakes t ht
  | abandoned htakes hnext =>
    refine List.forall_mem_cons.2 ⟨.abandoned, ?_⟩
    rintro _ hx
    obtain ⟨t, ht, rfl⟩ := List.mem_map.1 hx
    exact suits_of_takes htakes t ht

theorem suits_of_divides {ts rest : List Token} {ss : List Segment} (h : Divides rest ts ss) :
    ∀ x ∈ ledger ss, x.2.Suits x.1.kind := by
  induction h with
  | nil => simp [ledger]
  | cons h hs ih =>
    unfold ledger
    rw [List.flatMap_cons]
    exact List.forall_mem_append.2 ⟨suits_of_isSegment h, ih⟩

theorem eq_append_of_divides {ts rest : List Token} {ss : List Segment} (h : Divides rest ts ss) :
    ts = (ledger ss).map Prod.fst ++ rest := by
  induction h with
  | nil => rfl
  | cons h hs ih =>
    unfold ledger at ih ⊢
    rw [List.flatMap_cons, List.map_append, List.append_assoc, ← ih]
    rfl

theorem Fate.Suits.isEnd {f : Fate} {t : Token} (h : f.Suits t.kind) : t.isEnd = false := by
  obtain ⟨kind, p⟩ := t
  cases h <;> rfl

theorem body_of_divides {ts rest : List Token} {ss : List Segment} {warned : List Diagnostic}
    (h : Divides rest ts ss) (hends : Ends rest warned none) : (ledger ss).map Prod.fst = Window.body ts := by
  have hbody : ∀ t ∈ (ledger ss).map Prod.fst, (decide ¬ t.isEnd = true) = true := by
    intro t ht
    obtain ⟨x, hx, rfl⟩ := List.mem_map.1 ht
    simp [(suits_of_divides h x hx).isEnd]
  have hrest : Window.body rest = [] := by cases hends <;> rfl
  unfold Window.body at hrest ⊢
  conv_rhs => rw [eq_append_of_divides h, List.takeWhile_append_of_pos hbody, hrest, List.append_nil]

theorem level_of_mem_warnings {k : Keyword} {operands : List Token} {d : Diagnostic} (h : d ∈ k.warnings operands) :
    d.level = .warn := by
  obtain ⟨⟨param, t⟩, -, ht⟩ := List.mem_filterMap.1 h
  unfold Keyword.warning? at ht
  split at ht
  · split at ht
    · cases ht
    · obtain ⟨bound, -, rfl⟩ := Option.map_eq_some_iff.1 ht
      rfl
  · cases ht

/-- The events that warn are those of the warnings. -/
theorem filter_warn_map_event (ds : List Diagnostic) :
    (ds.map CommandLine.event).filter (fun e => e.level = .warn) =
      (ds.filter fun d => d.level = .warn).filterMap warningEvent? := by
  rw [List.filter_map, ← List.filterMap_eq_map', List.filterMap_filter, List.filterMap_filter]
  refine List.filterMap_congr fun d _ => ?_
  cases d <;> rfl

section Warnings

variable {ds : List Diagnostic} (h : ∀ d ∈ ds, d.level = .warn)

include h

theorem filter_debug_of_warn : (ds.map CommandLine.event).filter (fun e => e.level = .debug) = [] := by
  rw [List.filter_eq_nil_iff]
  rintro e he
  obtain ⟨d, hd, rfl⟩ := List.mem_map.1 he
  simp [CommandLine.event, h d hd]

theorem filter_warn_of_warn : ds.filter (fun d => d.level = .warn) = ds := by
  rw [List.filter_eq_self]
  intro d hd
  simp [h d hd]

end Warnings

namespace Segment

theorem diagnostics_after (s : Segment) (r : Reading) :
    (r.after s.entries).diagnostics = s.remarks ++ r.diagnostics := by
  cases s <;>
    simp [Reading.diagnostics, Reading.after, entries, remarks, statement?, List.filterMap_map]

theorem statements_after (s : Segment) (r : Reading) :
    (r.after s.entries).statements = s.fates.filterMap (fun x => x.2.statement?) ++ r.statements := by
  cases s <;>
    simp [Reading.statements, Reading.after, entries, remarks, statement?, fates, Fate.statement?, List.filterMap_map]

theorem events_remarks (s : Segment) :
    (s.remarks.map CommandLine.event).filter (fun e => e.level = .debug) = s.fates.filterMap fun x => x.2.event? x.1 := by
  have hwarnings : ∀ k operands, ((Keyword.warnings k operands).map CommandLine.event).filter
      (fun e => e.level = .debug) = [] := fun k operands => filter_debug_of_warn fun d hd => level_of_mem_warnings hd
  have hconsumed : ∀ operands : List Token, (operands.map fun t => (t, Fate.consumed)).filterMap
      (fun x => x.2.event? x.1) = [] := by simp [Fate.event?]
  cases s with
  | lineEnd t => rfl
  | skipped t => rfl
  | statement k p operands s =>
    rw [remarks, hwarnings, fates, List.filterMap_cons, hconsumed]
    rfl
  | abandoned k p operands =>
    rw [remarks, List.map_append, List.filter_append, hwarnings, fates, List.filterMap_cons, hconsumed]
    rfl

theorem filter_remarks (s : Segment) : s.remarks.filter (fun d => d.level = .warn) = s.warnings := by
  have hwarnings : ∀ k operands, (Keyword.warnings k operands).filter (fun d => d.level = .warn) = k.warnings operands :=
    fun k operands => filter_warn_of_warn fun d hd => level_of_mem_warnings hd
  cases s with
  | lineEnd t => rfl
  | skipped t => rfl
  | statement k p operands s => exact hwarnings k operands
  | abandoned k p operands =>
    rw [remarks, List.filter_append, hwarnings, warnings]
    exact List.append_nil _

end Segment

section Account

variable {ts rest : List Token} {ss : List Segment} {warned : List Diagnostic} {fault? : Option ParseError}

theorem level_of_mem_warned (h : Ends rest warned fault?) : ∀ d ∈ warned, d.level = .warn := by
  cases h with
  | exhausted => simp
  | endOfInput => simp
  | faulty htakes hnext => exact fun d hd => level_of_mem_warnings hd

theorem diagnostics_of_divides (h : Divides rest ts ss) (hends : Ends rest warned fault?) :
    (Parser.readTokens ts).diagnostics = ss.flatMap Segment.remarks ++ warned := by
  have hwarned : (⟨warned.map .remark, fault?⟩ : Reading).diagnostics = warned := by
    simp [Reading.diagnostics, List.filterMap_map]
  have hsegments : ∀ (ss : List Segment) (r : Reading),
      (r.after (ss.flatMap Segment.entries)).diagnostics = ss.flatMap Segment.remarks ++ r.diagnostics := by
    intro ss r
    induction ss with
    | nil => rfl
    | cons s ss ih =>
      rw [List.flatMap_cons, ← Parser.after_after, Segment.diagnostics_after, ih, List.flatMap_cons, List.append_assoc]
  rw [Parser.readTokens, Parser.read_divides h, Parser.read_ends hends, hsegments, hwarned]

theorem parse_of_divides (h : Divides rest ts ss) (hends : Ends rest warned fault?) :
    parse ts = fault?.elim (.ok (commandsFrom .unset ((ledger ss).filterMap fun x => x.2.statement?))) .error := by
  have hwarned : (⟨warned.map .remark, fault?⟩ : Reading).statements = [] := by
    simp [Reading.statements, List.filterMap_map]
  have hsegments : ∀ (ss : List Segment) (r : Reading), (r.after (ss.flatMap Segment.entries)).statements =
      (ledger ss).filterMap (fun x => x.2.statement?) ++ r.statements := by
    intro ss r
    induction ss with
    | nil => rfl
    | cons s ss ih =>
      unfold ledger at ih ⊢
      rw [List.flatMap_cons, ← Parser.after_after, Segment.statements_after, ih, List.flatMap_cons,
        List.filterMap_append, List.append_assoc]
  rw [parse, Parser.readTokens, Parser.read_divides h, Parser.read_ends hends, Reading.commands, hsegments, hwarned,
    List.append_nil]
  cases fault? <;> rfl

theorem divides_of_append {xs ys : List Segment} (h : Divides rest ts (xs ++ ys)) : ∃ us, Divides rest us ys := by
  induction xs generalizing ts with
  | nil => exact ⟨ts, h⟩
  | cons x xs ih =>
    cases h with
    | cons hx hs => exact ih hs

/-- An abandoned statement stands right before the invalid token that it was abandoned for, which is skipped. -/
theorem exists_cause {before after : List Segment} {k : Keyword} {p : Position} {operands : List Token}
    (h : Divides rest ts (before ++ .abandoned k p operands :: after)) (hends : Ends rest warned fault?) :
    ∃ text q later, after = .skipped ⟨.invalid text, q⟩ :: later := by
  obtain ⟨us, hus⟩ := divides_of_append h
  cases hus with
  | cons habandoned hafter =>
    cases habandoned with
    | @abandoned _ _ _ _ htakes text hnext =>
      cases hafter with
      | nil => cases hends <;> cases hnext
      | cons hs hlater =>
        obtain ⟨⟨kind, q⟩, hhead, rfl⟩ := Option.map_eq_some_iff.1 hnext
        obtain ⟨ts, heq⟩ := List.head?_eq_some_iff.1 hhead
        obtain ⟨-, -, ⟨hline, -⟩ | ⟨-, rfl⟩⟩ := hs.of_not_keyword heq nofun
        · cases hline
        · exact ⟨text, q, _, rfl⟩

end Account

/-- Tokens are divided into segments, up to the end of input or the first faulty keyword, in exactly one way,
and the commands and the log are what the segments say. -/
theorem parse_accounts (ts : List Token) :
    ∃ ss rest warned fault?, Divides rest ts ss ∧ Ends rest warned fault? ∧ IsAccount ts ss rest warned fault? ∧
      ∀ ss' rest' warned' fault?', Divides rest' ts ss' → Ends rest' warned' fault?' → ss' = ss := by
  obtain ⟨ss, rest, warned, fault?, h, hends⟩ := exists_division ts
  refine ⟨ss, rest, warned, fault?, h, hends, ?_, fun _ _ _ _ h' hends' => h'.unique hends' h hends⟩
  have hlog := diagnostics_of_divides h hends
  have hwarnings : (Parser.readTokens ts).diagnostics.filter (fun d => d.level = .warn) =
      ss.flatMap Segment.warnings ++ warned := by
    rw [hlog, List.filter_append, filter_warn_of_warn (level_of_mem_warned hends), List.filter_flatMap]
    simp only [Segment.filter_remarks]
  constructor
  case covers => exact eq_append_of_divides h
  case whole =>
    rintro rfl
    exact body_of_divides h hends
  case suits => exact suits_of_divides h
  case parsed => exact parse_of_divides h hends
  case log => exact hlog
  case events =>
    rw [hlog, List.map_append, List.filter_append, filter_debug_of_warn (level_of_mem_warned hends), List.append_nil,
      List.map_flatMap, List.filter_flatMap, ledger, List.filterMap_flatMap]
    simp only [Segment.events_remarks]
  case warnings => exact hwarnings
  case warningEvents => rw [filter_warn_map_event, hwarnings]
  case caused =>
    rintro before k p operands after rfl
    obtain ⟨text, q, later, rfl⟩ := exists_cause h hends
    refine ⟨text, q, later, rfl, ?_⟩
    rw [hlog]
    simp [Segment.remarks]

-- An operand is warned about although its statement is abandoned, and the invalid token is skipped once.
example : (Parser.readScript "RANDOMLATENCY 99999 @ SAY \"\"").entries =
    [.remark (.clamped .randomLatency "min" 99999 10000), .remark (.abandoned .randomLatency ⟨1, 1⟩),
      .remark (.skipped ⟨.invalid "@", ⟨1, 21⟩⟩), .statement (.say "")] := by
  decide +kernel

end ScriptedModel.Script
