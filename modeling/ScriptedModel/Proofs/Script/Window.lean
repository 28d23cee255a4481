/-
The windows of a token list. A keyword before the end of input looks at as many of the tokens after
it as it wants operands. If each is an operand of the right kind, the keyword is complete; else the
first that is not decides: an invalid token abandons the statement, and any other token, or none,
is a fault.

Main statement: parsing fails with the fault of the first faulty keyword, and where there is none
it gives one command for each complete `SAY` or `TOOLCALL`, under the settings of the last complete
keyword of each sort before it.
-/
import ScriptedModel.Proofs.Script.Reading

namespace ScriptedModel.Script

/-! ## Verdicts on keywords -/

/-- Whether a token can be an operand of a kind. -/
def ParamKind.admits : ParamKind → Token.Kind → Bool
  | .text, .string _ => true
  | .number, .number _ => true
  | _, _ => false

/-- What the tokens after a keyword make of it. -/
inductive Verdict
  | complete (operands : List Token.Kind)
  | abandoned
  | faulty (error : ParseError)
  deriving DecidableEq, Repr

/-- The fault of a faulty keyword. -/
def Verdict.fault? : Verdict → Option ParseError
  | .faulty e => some e
  | _ => none

namespace Keyword

/-- What is said where a keyword lacks an operand, by the number of operands before it. -/
def complaint : Keyword → Nat → String
  | .say, _ => "Expected string after SAY"
  | .toolCall, 0 => "Expected tool name string"
  | .toolCall, _ => "Expected arguments string"
  | .chunkSize, _ => "Expected number after CHUNKSIZE"
  | .chunkLatency, _ => "Expected number after CHUNKLATENCY"
  | .randomLatency, _ => "Expected number after RANDOMLATENCY"

/-- The kinds of the operands that a keyword wants, in order. -/
def operandKinds : Keyword → List ParamKind
  | .say => [.text]
  | .toolCall => [.text, .text]
  | .chunkSize => [.number]
  | .chunkLatency => [.number]
  | .randomLatency => [.number, .number]

/-- Whether the token at an index after a keyword is the operand that the keyword wants there. -/
def fits (k : Keyword) (after : List Token) (j : Nat) : Bool :=
  match k.operandKinds[j]?, after[j]? with
  | some kind, some t => kind.admits t.kind
  | _, _ => false

/-- The verdict on a keyword by the tokens after it. -/
def verdict (k : Keyword) (after : List Token) : Verdict :=
  match (List.range k.operandKinds.length).find? (fun j => ¬ k.fits after j) with
  | none => .complete ((after.take k.operandKinds.length).map Token.kind)
  | some j =>
    match after[j]? with
    | some ⟨.invalid _, _⟩ => .abandoned
    | some t => .faulty ⟨t.position, k.complaint j⟩
    | none => .faulty ⟨.nowhere, k.complaint j⟩

/-- The statement that a keyword makes of its operands. Sizes and latencies are at most the bounds
of the language, and a range is put in order. -/
def statement? : Keyword → List Token.Kind → Option Statement
  | .say, [.string content] => some (.say content)
  | .toolCall, [.string toolName, .string arguments] => some (.toolCall toolName arguments)
  | .chunkSize, [.number n] => some (.chunkSize (min n 1000))
  | .chunkLatency, [.number n] => some (.chunkLatency (min n 10000))
  | .randomLatency, [.number a, .number b] =>
    some (.randomLatency (min (min a 10000) (min b 10000)) (max (min a 10000) (min b 10000)))
  | _, _ => none

/-- The statement of a keyword on which there is a verdict, if it is complete. -/
def judged? (k : Keyword) : Verdict → Option Statement
  | .complete operands => k.statement? operands
  | _ => none

end Keyword

/-! ## What stands at an index -/

namespace Window

/-- The tokens before the first end of input. -/
def body (ts : List Token) : List Token := ts.takeWhile (fun t => ¬ t.isEnd)

/-- The keyword at an index before the end of input, and the verdict on it. -/
def verdictAt? (ts : List Token) (i : Nat) : Option (Keyword × Verdict) :=
  match (body ts)[i]? with
  | some ⟨.keyword k, _⟩ => some (k, k.verdict (ts.drop (i + 1)))
  | _ => none

/-- The fault of the keyword at an index. -/
def faultAt? (ts : List Token) (i : Nat) : Option ParseError :=
  (verdictAt? ts i).bind fun v => v.2.fault?

/-- The statement of the complete keyword at an index. -/
def statementAt? (ts : List Token) (i : Nat) : Option Statement :=
  (verdictAt? ts i).bind fun v => v.1.judged? v.2

/-- The chunk size that a statement establishes, if it does; zero establishes that there is none. -/
def chunkSize? : Statement → Option (Option Nat)
  | .chunkSize size => some (if size = 0 then none else some size)
  | _ => none

/-- The fixed latency that a statement establishes, if it does. -/
def chunkLatency? : Statement → Option (Option Nat)
  | .chunkLatency ms => some (some ms)
  | _ => none

/-- The range of latencies that a statement establishes, if it does. -/
def randomLatency? : Statement → Option (Option (Nat × Nat))
  | .randomLatency low high => some (some (low, high))
  | _ => none

/-- What the last complete keyword before an index establishes, of those that establish something. -/
def lastBefore {α : Type} (ts : List Token) (i : Nat) (said? : Statement → Option (Option α)) : Option α :=
  ((List.range i).filterMap fun m => (statementAt? ts m).bind said?).getLast?.join

/-- The settings in force at an index. -/
def settingsAt (ts : List Token) (i : Nat) : Settings :=
  ⟨lastBefore ts i chunkSize?, lastBefore ts i chunkLatency?, lastBefore ts i randomLatency?⟩

/-- The command at an index, where a complete keyword with an output stands. -/
def commandAt? (ts : List Token) (i : Nat) : Option Command :=
  ((statementAt? ts i).bind Statement.directive?).map fun d => ⟨d, settingsAt ts i⟩

/-- The commands of all indices before the end of input. -/
def commands (ts : List Token) : List Command :=
  (List.range (body ts).length).filterMap (commandAt? ts)

/-! ## Reading as a pass over verdicts -/

/-- The keywords before the end of input with the verdicts on them, in order. -/
def verdicts : List Token → List (Keyword × Verdict)
  | [] => []
  | t :: ts =>
    match t.kind with
    | .endOfInput => []
    | .keyword k => (k, k.verdict ts) :: verdicts ts
    | _ => verdicts ts

/-- The statements before the first fault, and that fault. -/
def judge : List (Keyword × Verdict) → List Statement × Option ParseError
  | [] => ([], none)
  | (k, .complete operands) :: vs => ((k.statement? operands).toList ++ (judge vs).1, (judge vs).2)
  | (_, .abandoned) :: vs => judge vs
  | (_, .faulty e) :: _ => ([], some e)

theorem judge_snd (vs : List (Keyword × Verdict)) : (judge vs).2 = (vs.filterMap fun v => v.2.fault?).head? := by
  fun_induction judge vs with
  | case1 => rfl
  | case2 k operands vs ih => rw [ih]; rfl
  | case3 k vs ih => rw [ih]; rfl
  | case4 k e vs => rfl

theorem judge_fst {vs : List (Keyword × Verdict)} (h : (judge vs).2 = none) :
    (judge vs).1 = vs.filterMap fun v => v.1.judged? v.2 := by
  fun_induction judge vs with
  | case1 => rfl
  | case2 k operands vs ih =>
    have hs : k.judged? (.complete operands) = k.statement? operands := rfl
    rw [ih h, List.filterMap_cons]
    cases hk : k.statement? operands <;> simp [hs, hk]
  | case3 k vs ih => rw [ih h]; rfl
  | case4 k e vs => cases h

/-! ## Indices -/

theorem body_cons (t : Token) (ts : List Token) :
    body (t :: ts) = if t.isEnd then [] else t :: body ts := by
  unfold body
  rw [List.takeWhile_cons]
  cases t.isEnd <;> rfl

/-- The verdicts in order are those of the indices in order. -/
theorem verdicts_eq_range (ts : List Token) :
    verdicts ts = (List.range (body ts).length).filterMap (verdictAt? ts) := by
  induction ts with
  | nil => rfl
  | cons t ts ih =>
    obtain ⟨kind, p⟩ := t
    -- Nothing after the end of input has an index in the body.
    by_cases hk : kind = .endOfInput
    · subst hk; rfl
    · have ht : (⟨kind, p⟩ : Token).isEnd = false := by simpa [Token.isEnd] using hk
      -- What stands at an index is what stood one index before without the first token.
      have hrest : (List.range (body ts).length).filterMap (fun i => verdictAt? (⟨kind, p⟩ :: ts) (i + 1)) =
          verdicts ts := by
        rw [ih]
        congr 1
        funext i
        unfold verdictAt?
        rw [body_cons, ht]
        rfl
      rw [body_cons, ht]
      simp only [Bool.false_eq_true, if_false, List.length_cons, List.range_succ_eq_map, List.filterMap_cons,
        List.filterMap_map]
      have hzero : verdictAt? (⟨kind, p⟩ :: ts) 0 =
          match kind with
          | .keyword k => some (k, k.verdict ts)
          | _ => none := by
        unfold verdictAt?
        rw [body_cons, ht]
        cases kind <;> rfl
      rw [hzero]
      cases kind with
      | endOfInput => exact absurd rfl hk
      | keyword k => exact congrArg _ hrest.symm
      | _ => exact hrest.symm

theorem findSome?_range_eq_some {α : Type} (f : Nat → Option α) (n : Nat) (a : α) :
    (List.range n).findSome? f = some a ↔ ∃ i < n, f i = some a ∧ ∀ m < i, f m = none := by
  induction n with
  | zero => simp
  | succ n ih =>
    rw [List.range_succ, List.findSome?_append, Option.or_eq_some_iff, ih]
    constructor
    · rintro (⟨i, hi, h⟩ | ⟨hn, h⟩)
      · exact ⟨i, by omega, h⟩
      · refine ⟨n, by omega, by simpa using h, fun m hm => ?_⟩
        exact List.findSome?_eq_none_iff.1 hn m (List.mem_range.2 hm)
    · rintro ⟨i, hi, h, hm⟩
      rcases Nat.lt_succ_iff_lt_or_eq.1 hi with hi | rfl
      · exact .inl ⟨i, hi, h, hm⟩
      · refine .inr ⟨List.findSome?_eq_none_iff.2 fun m h => hm m (List.mem_range.1 h), by simpa using h⟩

theorem verdictAt?_of_le {ts : List Token} {i : Nat} (h : (body ts).length ≤ i) : verdictAt? ts i = none := by
  unfold verdictAt?
  rw [List.getElem?_eq_none h]

theorem faultAt?_of_le {ts : List Token} {i : Nat} (h : (body ts).length ≤ i) : faultAt? ts i = none := by
  unfold faultAt?
  rw [verdictAt?_of_le h]
  rfl

theorem judge_verdicts_snd (ts : List Token) :
    (judge (verdicts ts)).2 = (List.range (body ts).length).findSome? (faultAt? ts) := by
  rw [judge_snd, verdicts_eq_range, List.filterMap_filterMap, List.head?_filterMap]
  rfl

theorem judge_verdicts_fst {ts : List Token} (h : (judge (verdicts ts)).2 = none) :
    (judge (verdicts ts)).1 = (List.range (body ts).length).filterMap (statementAt? ts) := by
  rw [judge_fst h, verdicts_eq_range, List.filterMap_filterMap]
  rfl

theorem judge_verdicts_eq_some (ts : List Token) (e : ParseError) :
    (judge (verdicts ts)).2 = some e ↔ ∃ i, faultAt? ts i = some e ∧ ∀ m < i, faultAt? ts m = none := by
  rw [judge_verdicts_snd, findSome?_range_eq_some]
  constructor
  · rintro ⟨i, -, h⟩
    exact ⟨i, h⟩
  -- There is no fault past the end of the body, so the index is in range.
  · rintro ⟨i, h, hm⟩
    refine ⟨i, Nat.lt_of_not_le fun hi => ?_, h, hm⟩
    rw [faultAt?_of_le hi] at h
    cases h

theorem judge_verdicts_eq_none (ts : List Token) :
    (judge (verdicts ts)).2 = none ↔ ∀ i, faultAt? ts i = none := by
  rw [judge_verdicts_snd, List.findSome?_eq_none_iff]
  constructor
  · intro h i
    by_cases hi : i < (body ts).length
    · exact h i (List.mem_range.2 hi)
    · exact faultAt?_of_le (by omega)
  · intro h i _
    exact h i

/-! ## Settings -/

theorem lastBefore_eq_afterAll {α : Type} (setting : Settings → Option α)
    (said? : Statement → Option (Option α)) (h : ∀ s st, setting (s.after st) = (said? st).getD (setting s))
    (h₀ : setting .unset = none) (ts : List Token) (i : Nat) :
    lastBefore ts i said? = setting (Settings.unset.afterAll ((List.range i).filterMap (statementAt? ts))) := by
  rw [setting_afterAll setting said? h, h₀, List.filterMap_filterMap, lastBefore]
  cases List.getLast? _ <;> rfl

theorem settingsAt_eq_afterAll (ts : List Token) (i : Nat) :
    settingsAt ts i = Settings.unset.afterAll ((List.range i).filterMap (statementAt? ts)) := by
  rw [settingsAt,
    lastBefore_eq_afterAll Settings.chunkSize chunkSize? (by intro s st; cases st <;> rfl) rfl,
    lastBefore_eq_afterAll Settings.chunkLatency chunkLatency? (by intro s st; cases st <;> rfl) rfl,
    lastBefore_eq_afterAll Settings.randomLatency randomLatency? (by intro s st; cases st <;> rfl) rfl]

/-- The commands of the statements at the indices are the commands at the indices. -/
theorem commandsFrom_statementAt? (ts : List Token) (n : Nat) :
    commandsFrom .unset ((List.range n).filterMap (statementAt? ts)) =
      (List.range n).filterMap (commandAt? ts) := by
  induction n with
  | zero => rfl
  | succ n ih =>
    rw [List.range_succ, List.filterMap_append, List.filterMap_append, commandsFrom_append, ih,
      ← settingsAt_eq_afterAll]
    congr 1
    simp only [List.filterMap_cons, List.filterMap_nil, commandAt?]
    cases statementAt? ts n with
    | none => rfl
    | some st => cases st <;> rfl

end Window

/-! ## One keyword after another -/

namespace Parser

open Window

/-- Reading on after a keyword does what the verdict on it says; `ih` reads what is left. -/
theorem summary_read_keyword (k : Keyword) (p : Position) (ts : List Token)
    (ih : ∀ us : List Token, us.length ≤ ts.length → (read .idle us).summary = judge (verdicts us)) :
    (read (.reading p (.ofKeyword k)) ts).summary = judge ((k, k.verdict ts) :: verdicts ts) := by
  rcases ts with _ | ⟨⟨kind, q⟩, ts⟩
  · cases k <;> rfl
  -- An operand is consumed or the verdict is reached, token by token, as the keyword wants them.
  have ih₁ := ih ts (by simp)
  cases k with
  | say =>
    cases kind with
    | string content => rw [summary_read_complete p ts (s := .say content) rfl, ih₁]; rfl
    | invalid text => rw [summary_read_invalid p ts rfl, ih₁]; rfl
    | _ => rw [summary_read_faulty p ts rfl (by simp)]; rfl
  | chunkSize =>
    cases kind with
    | number n =>
      rw [Pending.ofKeyword, summary_read_complete p ts (take_chunkSize n), ih₁]; rfl
    | invalid text => rw [summary_read_invalid p ts rfl, ih₁]; rfl
    | _ => rw [summary_read_faulty p ts rfl (by simp)]; rfl
  | chunkLatency =>
    cases kind with
    | number n =>
      rw [Pending.ofKeyword, summary_read_complete p ts (take_chunkLatency n), ih₁]; rfl
    | invalid text => rw [summary_read_invalid p ts rfl, ih₁]; rfl
    | _ => rw [summary_read_faulty p ts rfl (by simp)]; rfl
  | toolCall =>
    cases kind with
    | string toolName =>
      have h : Pending.toolCall.take (.string toolName) = some (.pending (.toolCallNamed toolName), []) := rfl
      rw [Pending.ofKeyword, summary_read_pending p ts h]
      -- The first operand is there; the second decides.
      rcases ts with _ | ⟨⟨kind, r⟩, ts⟩
      · rfl
      have ih₂ := ih ts (by simp only [List.length_cons]; omega)
      cases kind with
      | string arguments => rw [summary_read_complete p ts (s := .toolCall toolName arguments) rfl, ih₂]; rfl
      | invalid text => rw [summary_read_invalid p ts rfl, ih₂]; rfl
      | _ => rw [summary_read_faulty p ts rfl (by simp)]; rfl
    | invalid text => rw [summary_read_invalid p ts rfl, ih₁]; rfl
    | _ => rw [summary_read_faulty p ts rfl (by simp)]; rfl
  | randomLatency =>
    cases kind with
    | number a =>
      rw [Pending.ofKeyword, summary_read_pending p ts (take_randomLatency a)]
      rcases ts with _ | ⟨⟨kind, r⟩, ts⟩
      · rfl
      have ih₂ := ih ts (by simp only [List.length_cons]; omega)
      cases kind with
      | number b =>
        rw [summary_read_complete p ts (take_randomLatencyFrom (min a 10000) b), ih₂]; rfl
      | invalid text => rw [summary_read_invalid p ts rfl, ih₂]; rfl
      | _ => rw [summary_read_faulty p ts rfl (by simp)]; rfl
    | invalid text => rw [summary_read_invalid p ts rfl, ih₁]; rfl
    | _ => rw [summary_read_faulty p ts rfl (by simp)]; rfl

/-- Reading tokens is passing over the verdicts on their keywords. -/
theorem summary_read_idle (ts : List Token) : (read .idle ts).summary = judge (verdicts ts) := by
  -- A statement consumes several tokens, so the induction is on the number of tokens left.
  induction h : ts.length using Nat.strongRecOn generalizing ts with
  | _ n ih =>
    subst h
    rcases ts with _ | ⟨⟨kind, q⟩, ts⟩
    · rfl
    have ih' : ∀ us : List Token, us.length ≤ ts.length → (read .idle us).summary = judge (verdicts us) :=
      fun us hu => ih us.length (by simp only [List.length_cons]; omega) us rfl
    have ht := ih' ts (Nat.le_refl _)
    cases kind with
    | endOfInput => rfl
    | newline => exact ht
    | keyword k => exact summary_read_keyword k q ts ih'
    | _ =>
      show (Reading.after _ _).summary = judge (verdicts ts)
      rw [Reading.summary_after_remarks (by simp), ht]

end Parser

/-! ## Parsing -/

open Window

/-- Parsing fails exactly where a keyword is faulty, with the fault of the first that is; else it
gives the commands of the complete keywords. -/
theorem parse_windows (ts : List Token) :
    (∀ e, parse ts = .error e ↔ ∃ i, faultAt? ts i = some e ∧ ∀ m < i, faultAt? ts m = none) ∧
      (∀ cs, parse ts = .ok cs ↔ (∀ i, faultAt? ts i = none) ∧ cs = commands ts) := by
  have hread : (Parser.readTokens ts).summary = judge (verdicts ts) := Parser.summary_read_idle ts
  constructor
  · intro e
    rw [parse, Reading.commands_eq_error, hread, judge_verdicts_eq_some]
  · intro cs
    rw [parse, Reading.commands_eq_ok, hread]
    constructor
    · rintro ⟨h, rfl⟩
      refine ⟨(judge_verdicts_eq_none ts).1 h, ?_⟩
      rw [judge_verdicts_fst h, commandsFrom_statementAt?, commands]
    · rintro ⟨h, rfl⟩
      have hnone := (judge_verdicts_eq_none ts).2 h
      refine ⟨hnone, ?_⟩
      rw [judge_verdicts_fst hnone, commandsFrom_statementAt?, commands]

end ScriptedModel.Script
