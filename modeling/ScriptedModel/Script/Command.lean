/-
Statements, the settings they leave behind, and commands: an output together with the settings
in force where it stands.
-/

namespace ScriptedModel.Script

/-- A complete statement. A chunk size of zero withdraws the chunk size. -/
inductive Statement
  | say (content : String)
  | toolCall (toolName arguments : String)
  | chunkSize (size : Nat)
  | chunkLatency (milliseconds : Nat)
  | randomLatency (low high : Nat)
  deriving DecidableEq, Repr

/-- The settings in force at a place of a script; each may be unset. -/
structure Settings where
  chunkSize : Option Nat
  chunkLatency : Option Nat
  randomLatency : Option (Nat × Nat)
  deriving DecidableEq, Repr

/-- What a command puts out. -/
inductive Directive
  | say (content : String)
  | toolCall (toolName arguments : String)
  deriving DecidableEq, Repr

/-- An output and the settings it is to be streamed with. -/
structure Command where
  directive : Directive
  settings : Settings
  deriving DecidableEq, Repr

/-- Whether a command calls a tool. -/
def Command.isToolCall (c : Command) : Bool :=
  match c.directive with
  | .toolCall _ _ => true
  | .say _ => false

namespace Settings

/-- The settings at the start of a script. -/
def unset : Settings := ⟨none, none, none⟩

/-- The settings after a statement. -/
def after (s : Settings) : Statement → Settings
  | .chunkSize size => { s with chunkSize := if size = 0 then none else some size }
  | .chunkLatency ms => { s with chunkLatency := some ms }
  | .randomLatency low high => { s with randomLatency := some (low, high) }
  | .say _ => s
  | .toolCall _ _ => s

/-- The settings after a list of statements. -/
def afterAll (s : Settings) (statements : List Statement) : Settings := statements.foldl after s

end Settings

/-- The output of a statement, if it has one. -/
def Statement.directive? : Statement → Option Directive
  | .say content => some (.say content)
  | .toolCall toolName arguments => some (.toolCall toolName arguments)
  | _ => none

/-- The commands that statements give when they start under some settings. -/
def commandsFrom (s : Settings) : List Statement → List Command
  | [] => []
  | st :: rest =>
    match st.directive? with
    | some d => ⟨d, s⟩ :: commandsFrom (s.after st) rest
    | none => commandsFrom (s.after st) rest

end ScriptedModel.Script
