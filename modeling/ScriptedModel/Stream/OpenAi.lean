/-
The OpenAI wire format: server-sent events whose data are chat completion chunks, and a last event
that says the stream is done. The arguments of a tool call are cut into chunks of their own.
-/
import ScriptedModel.Json.Writer
import ScriptedModel.Stream.Chunks
import ScriptedModel.Stream.Framer

namespace ScriptedModel.Stream.OpenAi

open Json (Value)

/-! ## Chunks -/

/-- A piece of a tool call; the first piece also names the call and the tool. -/
structure ToolCallDelta where
  index : Nat
  opening : Option (String × String)
  arguments : String
  deriving DecidableEq, Repr

/-- What a chunk adds to the message. -/
inductive Delta
  | content (text : String)
  | toolCall (delta : ToolCallDelta)
  deriving DecidableEq, Repr

/-- Why the message ends. -/
inductive Finish
  | stop
  | toolCalls
  deriving DecidableEq, Repr

/-- A chunk of a message. -/
structure Chunk where
  id : String
  created : Nat
  model : String
  first : Bool
  delta : Delta
  finish : Option Finish
  deriving DecidableEq, Repr

/-- An event of the stream. -/
inductive Event
  | chunk (chunk : Chunk)
  | done
  deriving DecidableEq, Repr

namespace ToolCallDelta

/-- The piece as JSON. -/
def toJson (d : ToolCallDelta) : Value :=
  match d.opening with
  | some (callId, toolName) =>
    .object [("index", .nat d.index), ("id", .string callId), ("type", .string "function"),
      ("function", .object [("name", .string toolName), ("arguments", .string d.arguments)])]
  | none =>
    .object [("index", .nat d.index), ("function", .object [("arguments", .string d.arguments)])]

end ToolCallDelta

/-- The member that a delta gives. -/
def Delta.member : Delta → String × Value
  | .content text => ("content", .string text)
  | .toolCall d => ("tool_calls", .array [d.toJson])

/-- The name of a reason. -/
def Finish.name : Finish → String
  | .stop => "stop"
  | .toolCalls => "tool_calls"

namespace Chunk

/-- The delta of a chunk as JSON; the first chunk carries the role. -/
def deltaJson (c : Chunk) : Value :=
  .object ((if c.first then [("role", .string "assistant")] else []) ++ [c.delta.member])

/-- The chunk as JSON. -/
def toJson (c : Chunk) : Value :=
  .object [("id", .string c.id), ("object", .string "chat.completion.chunk"),
    ("created", .nat c.created), ("model", .string c.model),
    ("choices", .array [.object [("index", .nat 0), ("delta", c.deltaJson),
      ("finish_reason", Value.text? (c.finish.map Finish.name))]])]

end Chunk

/-- The frame of an event. -/
def Event.frame : Event → String
  | .chunk c => "data: " ++ c.toJson.compact ++ "\n\n"
  | .done => "data: [DONE]\n\n"

/-! ## The framer -/

/-- What is the same in all chunks, and the number of tool calls so far. -/
structure State where
  id : String
  created : Nat
  model : String
  toolCalls : Nat
  deriving DecidableEq, Repr

namespace State

/-- The state before the first unit. -/
def initial (id : String) (created : Nat) (model : String) : State := ⟨id, created, model, 0⟩

/-- A chunk of the message. -/
def chunk (s : State) (first : Bool) (delta : Delta) (finish : Option Finish) : Event :=
  .chunk ⟨s.id, s.created, s.model, first, delta, finish⟩

/-- The event of a chunk of text. -/
def textEvents (s : State) (u : TextUnit) : List Event :=
  [s.chunk u.first (.content u.text) (if u.terminal then some .stop else none)]

/-- The events of the pieces of a tool call after the first. -/
def laterPieces (s : State) (terminal : Bool) : List String → List Event
  | [] => []
  | piece :: rest =>
    s.chunk false (.toolCall ⟨s.toolCalls, none, piece⟩)
      (if terminal && rest.isEmpty then some .toolCalls else none) :: laterPieces s terminal rest

/-- The events of a tool call, one for each piece of its arguments. -/
def toolEvents (s : State) (u : ToolUnit) : List Event :=
  match chunkText u.arguments u.chunkSize with
  | [] => []
  | piece :: rest =>
    s.chunk u.first (.toolCall ⟨s.toolCalls, some (u.callId, u.toolName), piece⟩)
      (if u.terminal && rest.isEmpty then some .toolCalls else none) :: laterPieces s u.terminal rest

end State

instance : Framer State where
  provider _ := .openAi
  text s u := (s, (s.textEvents u).map Event.frame)
  toolCall s u := ({ s with toolCalls := s.toolCalls + 1 }, (s.toolEvents u).map Event.frame)
  close s := (s, [Event.done.frame])

end ScriptedModel.Stream.OpenAi
