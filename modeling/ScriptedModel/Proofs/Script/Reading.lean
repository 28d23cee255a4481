/-
What reading a list of tokens does to the statements that it completes and to the fault that it may
end with: one law for each thing that a token can be to a statement in the making. Remarks are left
out. The settings that a list of statements leaves behind are those that the last statement of each
sort establishes.
-/
import ScriptedModel.Script.Parser

namespace ScriptedModel.Script

/-! ## Settings -/

/-- A setting that each statement either establishes or leaves is, after some statements, what the
last of those that establish it says. -/
theorem setting_afterAll {α : Type} (setting : Settings → Option α)
    (said? : Statement → Option (Option α)) (h : ∀ s st, setting (s.after st) = (said? st).getD (setting s))
    (ss : List Statement) (s : Settings) :
    setting (s.afterAll ss) = (ss.filterMap said?).getLast?.getD (setting s) := by
  induction ss generalizing s with
  | nil => rfl
  | cons st ss ih =>
    have hstep : setting (s.afterAll (st :: ss)) = (ss.filterMap said?).getLast?.getD (setting (s.after st)) :=
      ih (s.after st)
    rw [hstep, h, List.filterMap_cons]
    cases said? st with
    | none => rfl
    | some v => simp [List.getLast?_cons]

theorem commandsFrom_append (s : Settings) (xs ys : List Statement) :
    commandsFrom s (xs ++ ys) = commandsFrom s xs ++ commandsFrom (s.afterAll xs) ys := by
  induction xs generalizing s with
  | nil => rfl
  | cons x xs ih =>
    have hafter : s.afterAll (x :: xs) = (s.after x).afterAll xs := rfl
    rw [List.cons_append, commandsFrom, commandsFrom, ih, hafter]
    cases x.directive? <;> rfl

/-- The commands of statements put out what the statements do, whatever the settings. -/
theorem directives_commandsFrom (s : Settings) (ss : List Statement) :
    (commandsFrom s ss).map Command.directive = ss.filterMap Statement.directive? := by
  induction ss generalizing s with
  | nil => rfl
  | cons st ss ih =>
    rw [commandsFrom, List.filterMap_cons]
    cases st.directive? with
    | none => exact ih (s.after st)
    | some d => exact congrArg (d :: ·) (ih (s.after st))

/-! ## Readings -/

namespace Reading

/-- The statements and the fault of a reading. -/
def summary (r : Reading) : List Statement × Option ParseError := (r.statements, r.fault?)

/-- Remarks leave the statements and the fault as they are. -/
theorem summary_after_remarks {es : List Entry} (h : ∀ e ∈ es, ∃ d, e = .remark d) (r : Reading) :
    (r.after es).summary = r.summary := by
  simp only [summary, statements, after, List.filterMap_append, Prod.mk.injEq, and_true]
  rw [List.filterMap_eq_nil_iff.2, List.nil_append]
  intro e he
  obtain ⟨d, rfl⟩ := h e he
  rfl

theorem summary_after_statement {es : List Entry} (h : ∀ e ∈ es, ∃ d, e = .remark d) (s : Statement)
    (r : Reading) : (r.after (es ++ [.statement s])).summary = (s :: r.summary.1, r.summary.2) := by
  have hs := summary_after_remarks h (r.after [.statement s])
  simpa [summary, statements, after] using hs

theorem commands_eq_error (r : Reading) (e : ParseError) :
    r.commands = .error e ↔ r.summary.2 = some e := by
  obtain ⟨es, fault⟩ := r
  cases fault <;> simp [Reading.commands, Reading.summary]

theorem commands_eq_ok (r : Reading) (cs : List Command) :
    r.commands = .ok cs ↔ r.summary.2 = none ∧ cs = commandsFrom .unset r.summary.1 := by
  obtain ⟨es, fault⟩ := r
  cases fault <;> simp [Reading.commands, Reading.summary, eq_comm]

end Reading

/-! ## One token after another -/

namespace Parser

theorem after_after (es fs : List Entry) (r : Reading) : (r.after fs).after es = r.after (es ++ fs) := by
  simp [Reading.after]

theorem bounded_remarks (k : Keyword) (p : Param) (n : Nat) :
    ∀ e ∈ (Pending.bounded k p n).2, ∃ d, e = .remark d := by
  unfold Pending.bounded
  simp only
  split <;> simp

/-- Taking an operand is remarked on at most. -/
theorem take_remarks {w : Pending} {kind : Token.Kind} {g : Pending.Progress} {es : List Entry}
    (h : w.take kind = some (g, es)) : ∀ e ∈ es, ∃ d, e = .remark d := by
  unfold Pending.take at h
  split at h
  case h_4 n =>
    split at h
    · cases h; simp
    · cases h; exact bounded_remarks .chunkSize .size n
  case h_5 n => cases h; exact bounded_remarks .chunkLatency .latency n
  case h_6 n => cases h; exact bounded_remarks .randomLatency .minimum n
  case h_7 _ n => cases h; exact bounded_remarks .randomLatency .maximum n
  all_goals cases h
  all_goals simp

section Step

variable (p : Position) {w w' : Pending} {t : Token} {es : List Entry} (ts : List Token)

theorem summary_read_invalid {text : String} (ht : t.kind = .invalid text) :
    (read (.reading p w) (t :: ts)).summary = (read .idle ts).summary := by
  rw [read, ht]
  exact Reading.summary_after_remarks (by simp) _

theorem take_invalid (w : Pending) (text : String) : w.take (.invalid text) = none := by
  cases w <;> rfl

theorem summary_read_pending (h : w.take t.kind = some (.pending w', es)) :
    (read (.reading p w) (t :: ts)).summary = (read (.reading p w') ts).summary := by
  have hes := Reading.summary_after_remarks (take_remarks h) (read (.reading p w') ts)
  obtain ⟨kind, q⟩ := t
  cases kind with
  | invalid text => simp only [take_invalid, reduceCtorEq] at h
  | _ => simp only [read, h, hes]

theorem summary_read_complete {s : Statement} (h : w.take t.kind = some (.complete s, es)) :
    (read (.reading p w) (t :: ts)).summary = (s :: (read .idle ts).summary.1, (read .idle ts).summary.2) := by
  rw [← Reading.summary_after_statement (take_remarks h)]
  obtain ⟨kind, q⟩ := t
  cases kind with
  | invalid text => simp only [take_invalid, reduceCtorEq] at h
  | _ => simp only [read, h]

theorem summary_read_faulty (h : w.take t.kind = none) (ht : ∀ text, t.kind ≠ .invalid text) :
    (read (.reading p w) (t :: ts)).summary = ([], some ⟨t.position, w.complaint⟩) := by
  obtain ⟨kind, q⟩ := t
  cases kind with
  | invalid text => exact absurd rfl (ht text)
  | _ => simp only [read, h]; rfl

end Step

end Parser

/-! ## Operands that are numbers -/

/-- The bound that a number is beyond, if it is beyond one. -/
def Param.exceeded? (p : Param) (n : Nat) : Option Nat :=
  (p.lowest.filter fun low => n < low).or (p.highest.filter fun high => high < n)

/-- The warning about an operand: it is beyond a bound, and it is not the chunk size zero. -/
def Keyword.warning? (k : Keyword) (param : Param) : Token.Kind → Option Diagnostic
  | .number n => if k = .chunkSize ∧ n = 0 then none else (param.exceeded? n).map (.clamped k param.name n)
  | _ => none

theorem exceeded?_ofNumber (name : String) (low high n : Nat) :
    (Param.ofNumber name low high).exceeded? n = if n < low then some low else if high < n then some high else none := by
  unfold Param.exceeded? Param.ofNumber
  simp only [Option.filter_some, decide_eq_true_eq]
  split <;> rfl

theorem warning?_of_le {k : Keyword} {name : String} {low high n : Nat} (hlow : low ≤ n ∨ k = .chunkSize ∧ n = 0)
    (hhigh : n ≤ high) : k.warning? (.ofNumber name low high) (.number n) = none := by
  rw [Keyword.warning?]
  split
  · rfl
  · rename_i hzero
    have hlow' : low ≤ n := hlow.resolve_right hzero
    rw [exceeded?_ofNumber, if_neg (by omega), if_neg (by omega)]
    rfl

namespace Parser

theorem clamp_ofNumber (name : String) (low high n : Nat) :
    (Param.ofNumber name low high).clamp n = min (max n low) high :=
  rfl

theorem bounded_ofNumber {k : Keyword} {name : String} {low high n : Nat} (h : low ≤ high)
    (hzero : ¬ (k = .chunkSize ∧ n = 0)) :
    Pending.bounded k (.ofNumber name low high) n =
      (min (max n low) high, (k.warning? (.ofNumber name low high) (.number n)).toList.map .remark) := by
  rw [Pending.bounded, Keyword.warning?, if_neg hzero, clamp_ofNumber, exceeded?_ofNumber]
  by_cases hlow : n < low
  · have hclamp : min (max n low) high = low := by omega
    simp [hclamp, hlow, (Nat.ne_of_lt hlow).symm, Param.ofNumber]
  by_cases hhigh : high < n
  · have hclamp : min (max n low) high = high := by omega
    simp [hclamp, hlow, hhigh, Nat.ne_of_lt hhigh, Param.ofNumber]
  · have hclamp : min (max n low) high = n := by omega
    simp [hclamp, hlow, hhigh]

theorem take_chunkSize (n : Nat) :
    Pending.chunkSize.take (.number n) = some (.complete (.chunkSize (min n 1000)),
      (Keyword.chunkSize.warning? .size (.number n)).toList.map .remark) := by
  by_cases hn : n = 0
  · subst hn; rfl
  -- Only zero is below the least size, and it is taken for itself.
  · have hsize : min (max n 1) 1000 = min n 1000 := by omega
    rw [Pending.take, if_neg hn, Param.size, bounded_ofNumber (by omega) (fun h => hn h.2), hsize]

theorem take_chunkLatency (n : Nat) :
    Pending.chunkLatency.take (.number n) = some (.complete (.chunkLatency (min n 10000)),
      (Keyword.chunkLatency.warning? .latency (.number n)).toList.map .remark) := by
  rw [Pending.take, Param.latency, bounded_ofNumber (by omega) (by simp), Nat.max_zero]

theorem take_randomLatency (n : Nat) :
    Pending.randomLatency.take (.number n) = some (.pending (.randomLatencyFrom (min n 10000)),
      (Keyword.randomLatency.warning? .minimum (.number n)).toList.map .remark) := by
  rw [Pending.take, Param.minimum, bounded_ofNumber (by omega) (by simp), Nat.max_zero]

theorem take_randomLatencyFrom (bound n : Nat) :
    (Pending.randomLatencyFrom bound).take (.number n) =
      some (.complete (.randomLatency (min bound (min n 10000)) (max bound (min n 10000))),
        (Keyword.randomLatency.warning? .maximum (.number n)).toList.map .remark) := by
  rw [Pending.take, Param.maximum, bounded_ofNumber (by omega) (by simp), Nat.max_zero]

end Parser

end ScriptedModel.Script
