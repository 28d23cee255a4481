/-
The settings that statements establish. Each setting is as the last statement of its sort says, and
where there is none it is as it was before: a chunk size of zero is said too, and says that there is
none.

Main statement: the commands of statements are those of the statements with an output, each under the
settings that the statements before it establish.
-/
import ScriptedModel.Proofs.Script.Window

namespace ScriptedModel.Script

open Window (chunkSize? chunkLatency? randomLatency?)

/-- What the last statement that establishes a setting says of it, if one does. -/
def established? {α : Type} (said? : Statement → Option α) (ss : List Statement) : Option α :=
  (ss.filterMap said?).getLast?

/-- The settings after statements: those that the statements establish, and for the rest those that
were in force before. -/
def Settings.over (s : Settings) (ss : List Statement) : Settings :=
  ⟨(established? chunkSize? ss).getD s.chunkSize, (established? chunkLatency? ss).getD s.chunkLatency,
    (established? randomLatency? ss).getD s.randomLatency⟩

/-- The command of the statement at an index, if it has an output. -/
def commandUnder? (s : Settings) (ss : List Statement) (i : Nat) : Option Command :=
  (ss[i]?.bind Statement.directive?).map fun d => ⟨d, s.over (ss.take i)⟩

/-- The commands of statements, where settings are in force before the first. -/
def commandsUnder (s : Settings) (ss : List Statement) : List Command :=
  (List.range ss.length).filterMap (commandUnder? s ss)

theorem afterAll_eq_over (s : Settings) (ss : List Statement) : s.afterAll ss = s.over ss := by
  have hsize := setting_afterAll Settings.chunkSize chunkSize? (by intro s st; cases st <;> rfl) ss s
  have hlatency := setting_afterAll Settings.chunkLatency chunkLatency? (by intro s st; cases st <;> rfl) ss s
  have hrandom := setting_afterAll Settings.randomLatency randomLatency? (by intro s st; cases st <;> rfl) ss s
  unfold Settings.over established?
  rw [← hsize, ← hlatency, ← hrandom]

theorem filterMap_commandUnder? (s : Settings) (ss : List Statement) (n : Nat) :
    (List.range n).filterMap (commandUnder? s ss) = commandsFrom s (ss.take n) := by
  induction n with
  | zero => rfl
  | succ n ih =>
    rw [List.range_succ, List.filterMap_append, ih, List.take_add_one, commandsFrom_append, afterAll_eq_over]
    congr 1
    rw [List.filterMap_cons, List.filterMap_nil, commandUnder?]
    rcases ss[n]? with _ | st
    · rfl
    · cases st <;> rfl

theorem commandsFrom_eq_commandsUnder (s : Settings) (ss : List Statement) :
    commandsFrom s ss = commandsUnder s ss := by
  rw [commandsUnder, filterMap_commandUnder?, List.take_length]

/-! ## Scripts -/

/-- The statements that a script completes, in order. -/
def statementsOf (script : String) : List Statement := (Parser.readScript script).statements

theorem parseScript_eq_error (script : String) (e : ParseError) :
    parseScript script = .error e ↔ (Parser.readScript script).summary.2 = some e :=
  Reading.commands_eq_error _ e

theorem parseScript_eq_ok (script : String) (cs : List Command) :
    parseScript script = .ok cs ↔
      (Parser.readScript script).summary.2 = none ∧ cs = commandsUnder .unset (statementsOf script) := by
  rw [← commandsFrom_eq_commandsUnder]
  exact Reading.commands_eq_ok _ cs

end ScriptedModel.Script
