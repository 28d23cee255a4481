/-
The listing of commands as JSON: what a command puts out, then each setting that is in force.
-/
import ScriptedModel.Json.Writer
import ScriptedModel.Script.Command

namespace ScriptedModel.Script

open Json (Value)

/-- A directive as an object tagged with its keyword. -/
def Directive.toJson : Directive → Value
  | .say content => .object [("type", .string "SAY"), ("content", .string content)]
  | .toolCall toolName arguments =>
    .object [("type", .string "TOOLCALL"), ("toolName", .string toolName), ("arguments", .string arguments)]

/-- A member for a setting, if it is set. -/
def Settings.members (s : Settings) : List (String × Value) :=
  (s.chunkSize.toList.map fun n => ("chunkSize", .nat n))
    ++ (s.chunkLatency.toList.map fun n => ("chunkLatencyMs", .nat n))
    ++ (s.randomLatency.toList.map fun r => ("randomLatencyMs", .array [.nat r.1, .nat r.2]))

/-- A command as an object. -/
def Command.toJson (c : Command) : Value :=
  .object (("command", c.directive.toJson) :: c.settings.members)

/-- The indented listing of commands. -/
def listing (cs : List Command) : String := (Value.array (cs.map Command.toJson)).indented

end ScriptedModel.Script
