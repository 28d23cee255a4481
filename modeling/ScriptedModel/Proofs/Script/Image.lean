/-
The commands that scripts can be made of. Each statement that is completed is within the bounds of the
language, so the settings that it leaves are; and no statement withdraws a latency.

Main statement: these are all restrictions, since a list of commands that obeys them is what a script
gives that establishes the settings of each command before it.
-/
import ScriptedModel.Proofs.Script.Printing

namespace ScriptedModel.Script

/-! ## What scripts give -/

/-- Whether settings are within the bounds of the language. -/
structure Settings.InBounds (s : Settings) : Prop where
  chunkSize : ∀ n ∈ s.chunkSize, 1 ≤ n ∧ n ≤ 1000
  chunkLatency : ∀ ms ∈ s.chunkLatency, ms ≤ 10000
  randomLatency : ∀ r ∈ s.randomLatency, r.1 ≤ r.2 ∧ r.2 ≤ 10000

/-- Whether settings have the latencies that settings before have, be it with other values. -/
structure Settings.KeepsLatencies (before s : Settings) : Prop where
  chunkLatency : before.chunkLatency.isSome → s.chunkLatency.isSome
  randomLatency : before.randomLatency.isSome → s.randomLatency.isSome

namespace Settings

theorem inBounds_unset : unset.InBounds := ⟨by simp [unset], by simp [unset], by simp [unset]⟩

theorem KeepsLatencies.refl (s : Settings) : s.KeepsLatencies s := ⟨id, id⟩

theorem KeepsLatencies.trans {s t u : Settings} (h : s.KeepsLatencies t) (h' : t.KeepsLatencies u) :
    s.KeepsLatencies u :=
  ⟨h'.chunkLatency ∘ h.chunkLatency, h'.randomLatency ∘ h.randomLatency⟩

theorem InBounds.after {s : Settings} (hs : s.InBounds) {st : Statement} (hst : st.InBounds) : (s.after st).InBounds := by
  obtain ⟨hsize, hlatency, hrandom⟩ := hs
  cases st with
  | say content => exact ⟨hsize, hlatency, hrandom⟩
  | toolCall toolName arguments => exact ⟨hsize, hlatency, hrandom⟩
  | chunkSize size =>
    refine ⟨fun n hn => ?_, hlatency, hrandom⟩
    have hle : size ≤ 1000 := hst
    simp only [Settings.after] at hn
    split at hn
    · cases hn
    · cases hn
      omega
  | chunkLatency ms =>
    refine ⟨hsize, fun n hn => ?_, hrandom⟩
    cases hn
    exact hst
  | randomLatency low high =>
    refine ⟨hsize, hlatency, fun r hr => ?_⟩
    cases hr
    exact hst

theorem keepsLatencies_after (s : Settings) (st : Statement) : s.KeepsLatencies (s.after st) := by
  cases st with
  | chunkLatency ms => exact ⟨fun _ => rfl, id⟩
  | randomLatency low high => exact ⟨id, fun _ => rfl⟩
  | _ => exact ⟨id, id⟩

end Settings

theorem inBounds_commandsFrom {ss : List Statement} (hss : ∀ st ∈ ss, st.InBounds) {s : Settings} (hs : s.InBounds) :
    ∀ c ∈ commandsFrom s ss, c.settings.InBounds := by
  induction ss generalizing s with
  | nil => exact fun c hc => nomatch hc
  | cons st ss ih =>
    have hrest := ih (fun x hx => hss x (List.mem_cons_of_mem st hx)) (hs.after (hss st List.mem_cons_self))
    intro c hc
    rw [commandsFrom] at hc
    rcases hd : st.directive? with _ | d
    · rw [hd] at hc
      exact hrest c hc
    · rw [hd] at hc
      rcases List.mem_cons.1 hc with rfl | hc
      · exact hs
      · exact hrest c hc

theorem keepsLatencies_commandsFrom (s : Settings) (ss : List Statement) :
    ∀ c ∈ commandsFrom s ss, s.KeepsLatencies c.settings := by
  induction ss generalizing s with
  | nil => exact fun c hc => nomatch hc
  | cons st ss ih =>
    intro c hc
    rw [commandsFrom] at hc
    have hrest := fun h => (s.keepsLatencies_after st).trans (ih (s.after st) c h)
    rcases hd : st.directive? with _ | d
    · rw [hd] at hc
      exact hrest hc
    · rw [hd] at hc
      rcases List.mem_cons.1 hc with rfl | hc
      · exact .refl s
      · exact hrest hc

theorem pairwise_commandsFrom (s : Settings) (ss : List Statement) :
    (commandsFrom s ss).Pairwise fun c d => c.settings.KeepsLatencies d.settings := by
  induction ss generalizing s with
  | nil => exact .nil
  | cons st ss ih =>
    rw [commandsFrom]
    rcases hd : st.directive? with _ | d
    · exact ih (s.after st)
    · refine .cons (fun c hc => ?_) (ih (s.after st))
      exact (s.keepsLatencies_after st).trans (keepsLatencies_commandsFrom (s.after st) ss c hc)

/-! ### Statements that are completed -/

theorem inBounds_of_statement? {k : Keyword} {operands : List Token.Kind} {st : Statement}
    (h : k.statement? operands = some st) : st.InBounds := by
  unfold Keyword.statement? at h
  split at h
  all_goals cases h
  · trivial
  · trivial
  · exact Nat.min_le_right _ _
  · exact Nat.min_le_right _ _
  · show min _ _ ≤ max _ _ ∧ max _ _ ≤ 10000
    omega

theorem inBounds_judge (vs : List (Keyword × Verdict)) : ∀ st ∈ (Window.judge vs).1, st.InBounds := by
  fun_induction Window.judge vs with
  | case1 =>
    intro st hst
    cases hst
  | case2 k operands vs ih =>
    intro st hst
    rcases List.mem_append.1 hst with hst | hst
    · exact inBounds_of_statement? (Option.mem_toList.1 hst)
    · exact ih st hst
  | case3 k vs ih => exact ih
  | case4 k e vs =>
    intro st hst
    cases hst

/-- However malformed a script is, what it completes is within the bounds of the language. -/
theorem inBounds_statementsOf (script : String) : ∀ st ∈ statementsOf script, st.InBounds := by
  have h := Parser.summary_read_idle (Lexer.tokenize script)
  have hstatements : statementsOf script = (Window.judge (Window.verdicts (Lexer.tokenize script))).1 :=
    congrArg Prod.fst h
  rw [hstatements]
  exact inBounds_judge _

/-! ## A script of every list -/

/-- The statement that has an output. -/
def Directive.statement : Directive → Statement
  | .say content => .say content
  | .toolCall toolName arguments => .toolCall toolName arguments

/-- Statements that establish settings. A chunk size that is unset is withdrawn; a latency that is unset
was never set. -/
def Settings.statements (s : Settings) : List Statement :=
  .chunkSize (s.chunkSize.getD 0) ::
    (s.chunkLatency.toList.map .chunkLatency ++ s.randomLatency.toList.map fun r => .randomLatency r.1 r.2)

/-- Statements that establish the settings of a command, and the one that has its output. -/
def Command.statements (c : Command) : List Statement := c.settings.statements ++ [c.directive.statement]

theorem Settings.InBounds.statements {s : Settings} (hs : s.InBounds) : ∀ st ∈ s.statements, st.InBounds := by
  intro st hst
  simp only [Settings.statements, List.mem_cons, List.mem_append, List.mem_map, Option.mem_toList] at hst
  rcases hst with rfl | ⟨ms, hms, rfl⟩ | ⟨r, hr, rfl⟩
  · show s.chunkSize.getD 0 ≤ 1000
    rcases hsize : s.chunkSize with _ | n
    · exact Nat.zero_le _
    · exact (hs.chunkSize n hsize).2
  · exact hs.chunkLatency ms hms
  · exact hs.randomLatency r hr

theorem inBounds_statements {c : Command} (hc : c.settings.InBounds) : ∀ st ∈ c.statements, st.InBounds := by
  intro st hst
  rcases List.mem_append.1 hst with hst | hst
  · exact hc.statements st hst
  · obtain rfl := List.mem_singleton.1 hst
    cases c.directive <;> trivial

/-- Settings are established where latencies that they lack are unset. -/
theorem afterAll_statements {before s : Settings} (hkeeps : before.KeepsLatencies s) (hs : s.InBounds) :
    before.afterAll s.statements = s := by
  obtain ⟨size, latency, random⟩ := s
  obtain ⟨size₀, latency₀, random₀⟩ := before
  obtain ⟨hlatency, hrandom⟩ := hkeeps
  have hsize : (if size.getD 0 = 0 then none else some (size.getD 0)) = size := by
    rcases size with _ | n
    · rfl
    · have := (hs.chunkSize n rfl).1
      exact if_neg (by simp; omega)
  have hlatency' : latency = none → latency₀ = none := by
    rintro rfl
    simpa using hlatency
  have hrandom' : random = none → random₀ = none := by
    rintro rfl
    simpa using hrandom
  rw [Settings.statements, Settings.afterAll, List.foldl_cons]
  show List.foldl _ (⟨if size.getD 0 = 0 then none else some (size.getD 0), latency₀, random₀⟩ : Settings) _ = _
  rw [hsize]
  rcases latency with _ | ms
  · rw [hlatency' rfl]
    rcases random with _ | r
    · rw [hrandom' rfl]
      rfl
    · rfl
  · rcases random with _ | r
    · rw [hrandom' rfl]
      rfl
    · rfl

theorem commandsFrom_of_silent {ss : List Statement} (hss : ∀ st ∈ ss, st.directive? = none) (s : Settings) :
    commandsFrom s ss = [] := by
  induction ss generalizing s with
  | nil => rfl
  | cons st ss ih =>
    rw [commandsFrom, hss st List.mem_cons_self]
    exact ih (fun x hx => hss x (List.mem_cons_of_mem st hx)) _

theorem silent_statements (s : Settings) : ∀ st ∈ s.statements, st.directive? = none := by
  intro st hst
  simp only [Settings.statements, List.mem_cons, List.mem_append, List.mem_map] at hst
  rcases hst with rfl | ⟨ms, hms, rfl⟩ | ⟨r, hr, rfl⟩ <;> rfl

theorem commandsFrom_statements {before : Settings} {c : Command} (hkeeps : before.KeepsLatencies c.settings)
    (hc : c.settings.InBounds) (ss : List Statement) :
    commandsFrom before (c.statements ++ ss) = c :: commandsFrom c.settings ss := by
  rw [Command.statements, List.append_assoc, commandsFrom_append, commandsFrom_of_silent (silent_statements _),
    afterAll_statements hkeeps hc]
  obtain ⟨content | ⟨toolName, arguments⟩, settings⟩ := c <;> rfl

theorem commandsFrom_flatMap_statements {s : Settings} {cs : List Command} (hs : ∀ c ∈ cs, s.KeepsLatencies c.settings)
    (hbounds : ∀ c ∈ cs, c.settings.InBounds)
    (hkept : cs.Pairwise fun c d => c.settings.KeepsLatencies d.settings) :
    commandsFrom s (cs.flatMap Command.statements) = cs := by
  induction cs generalizing s with
  | nil => rfl
  | cons c cs ih =>
    obtain ⟨hnext, hkept⟩ := List.pairwise_cons.1 hkept
    rw [List.flatMap_cons, commandsFrom_statements (hs c List.mem_cons_self) (hbounds c List.mem_cons_self),
      ih hnext (fun d hd => hbounds d (List.mem_cons_of_mem c hd)) hkept]

/-- The lists of commands that scripts give are those whose settings are in bounds and never lose a
latency. -/
theorem exists_parseScript_iff (cs : List Command) :
    (∃ script, parseScript script = .ok cs) ↔
      (∀ c ∈ cs, c.settings.InBounds) ∧ cs.Pairwise fun c d => c.settings.KeepsLatencies d.settings := by
  constructor
  · rintro ⟨script, h⟩
    obtain ⟨-, rfl⟩ := (parseScript_eq_ok script cs).1 h
    rw [← commandsFrom_eq_commandsUnder]
    exact ⟨inBounds_commandsFrom (inBounds_statementsOf script) Settings.inBounds_unset, pairwise_commandsFrom _ _⟩
  · rintro ⟨hbounds, hkept⟩
    have hunset : ∀ c ∈ cs, Settings.unset.KeepsLatencies c.settings := fun c _ => ⟨nofun, nofun⟩
    have hstatements : ∀ st ∈ cs.flatMap Command.statements, st.InBounds := by
      intro st hst
      obtain ⟨c, hc, hst⟩ := List.mem_flatMap.1 hst
      exact inBounds_statements (hbounds c hc) st hst
    refine ⟨String.ofList (renderScript (cs.flatMap Command.statements)), ?_⟩
    rw [parseScript_of_prints _ hstatements, commandsFrom_flatMap_statements hunset hbounds hkept]
    rw [String.toList_ofList]
    exact prints_renderScript _

end ScriptedModel.Script
