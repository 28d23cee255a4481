/-
The pause before a chunk of text: the fixed latency of its command, else a value drawn from its
random range, else the default.
-/
import ScriptedModel.Script.Command

namespace ScriptedModel.Stream

/-- The number between two bounds, in whichever order they are given, that a draw falls on. -/
def drawBetween (draw a b : Nat) : Nat := min a b + draw % (max a b - min a b + 1)

/-- The pause that settings ask for, in milliseconds. -/
def latency (defaultLatency draw : Nat) (s : Script.Settings) : Nat :=
  match s.chunkLatency, s.randomLatency with
  | some ms, _ => ms
  | none, some (a, b) => drawBetween draw a b
  | none, none => defaultLatency

end ScriptedModel.Stream
