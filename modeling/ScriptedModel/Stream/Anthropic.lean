/-
The Anthropic wire format: named server-sent events that start a message, open, fill and stop its
content blocks one after another, and end the message. Consecutive text goes into one block; every
tool call gets a block of its own.
-/
import ScriptedModel.Json.Writer
import ScriptedModel.Stream.Framer

namespace ScriptedModel.Stream.Anthropic

open Json (Value)

/-! ## Content blocks -/

/-- The block that is open, by its index. -/
inductive BlockState
  | none
  | text (index : Nat)
  | tool (index : Nat)
  deriving DecidableEq, Repr

/-- The state after a step, the block to stop first, and the block to start then. -/
structure Transition where
  state : BlockState
  stop : Option Nat
  start : Option Nat
  deriving DecidableEq, Repr

namespace BlockState

/-- The index of the open block. -/
def index? : BlockState → Option Nat
  | .none => Option.none
  | .text i => some i
  | .tool i => some i

/-- The index that the next block gets. -/
def nextIndex (s : BlockState) : Nat := s.index?.elim 0 (· + 1)

/-- Enters a text block; one that is open is kept. -/
def toText (s : BlockState) : Transition :=
  match s with
  | .text i => ⟨.text i, Option.none, Option.none⟩
  | _ => ⟨.text s.nextIndex, s.index?, some s.nextIndex⟩

/-- Enters a tool block, which is always a new one. -/
def toTool (s : BlockState) : Transition := ⟨.tool s.nextIndex, s.index?, some s.nextIndex⟩

/-- Stops the open block. -/
def toClosed (s : BlockState) : Transition := ⟨.none, s.index?, Option.none⟩

end BlockState

/-! ## Events -/

/-- What a content block holds when it starts. -/
inductive Block
  | text
  | toolUse (callId toolName : String)
  deriving DecidableEq, Repr

/-- What is added to a content block. -/
inductive Delta
  | text (added : String)
  | inputJson (partialJson : String)
  deriving DecidableEq, Repr

/-- Why the message ends. -/
inductive StopReason
  | endTurn
  | toolUse
  deriving DecidableEq, Repr

/-- An event of the stream. -/
inductive Event
  | messageStart (id model : String)
  | blockStart (index : Nat) (block : Block)
  | blockDelta (index : Nat) (delta : Delta)
  | blockStop (index : Nat)
  | messageDelta (reason : StopReason) (outputTokens : Nat)
  | messageStop
  deriving DecidableEq, Repr

/-- The content of a block as JSON. -/
def Block.toJson : Block → Value
  | .text => .object [("text", .string ""), ("type", .string "text")]
  | .toolUse callId toolName =>
    .object [("id", .string callId), ("input", .object []), ("name", .string toolName),
      ("type", .string "tool_use")]

/-- An addition as JSON. -/
def Delta.toJson : Delta → Value
  | .text added => .object [("text", .string added), ("type", .string "text_delta")]
  | .inputJson raw => .object [("partial_json", .string raw), ("type", .string "input_json_delta")]

/-- The name of a reason. -/
def StopReason.name : StopReason → String
  | .endTurn => "end_turn"
  | .toolUse => "tool_use"

namespace Event

/-- The name of an event. -/
def name : Event → String
  | .messageStart _ _ => "message_start"
  | .blockStart _ _ => "content_block_start"
  | .blockDelta _ _ => "content_block_delta"
  | .blockStop _ => "content_block_stop"
  | .messageDelta _ _ => "message_delta"
  | .messageStop => "message_stop"

/-- The data of an event as JSON, its members sorted by name. -/
def toJson : Event → Value
  | .messageStart id model =>
    .object [("message", .object [("content", .array []), ("id", .string id), ("model", .string model),
        ("role", .string "assistant"), ("stop_reason", .null), ("stop_sequence", .null),
        ("type", .string "message"),
        ("usage", .object [("input_tokens", .nat 0), ("output_tokens", .nat 0)])]),
      ("type", .string "message_start")]
  | .blockStart index block =>
    .object [("content_block", block.toJson), ("index", .nat index), ("type", .string "content_block_start")]
  | .blockDelta index delta =>
    .object [("delta", delta.toJson), ("index", .nat index), ("type", .string "content_block_delta")]
  | .blockStop index => .object [("index", .nat index), ("type", .string "content_block_stop")]
  | .messageDelta reason outputTokens =>
    .object [("delta", .object [("stop_reason", .string reason.name), ("stop_sequence", .null)]),
      ("type", .string "message_delta"), ("usage", .object [("output_tokens", .nat outputTokens)])]
  | .messageStop => .object [("type", .string "message_stop")]

/-- The frame of an event. -/
def frame (e : Event) : String := "event: " ++ e.name ++ "\ndata: " ++ e.toJson.compact ++ "\n\n"

end Event

/-! ## The framer -/

/-- The message under way: whether it has started, its open block, whether its last unit was a tool
call, and the number of additions to its blocks. -/
structure State where
  id : String
  model : String
  block : BlockState
  started : Bool
  endedWithTool : Bool
  outputTokens : Nat
  deriving DecidableEq, Repr

namespace State

/-- The state before the first unit. -/
def initial (id model : String) : State := ⟨id, model, .none, false, false, 0⟩

/-- The start of the message, unless it has started. -/
def startEvents (s : State) : List Event :=
  if s.started then [] else [.messageStart s.id s.model]

/-- The stop that a transition asks for. -/
def stopEvents (t : Transition) : List Event := t.stop.toList.map .blockStop

/-- The events of a chunk of text. -/
def textEvents (s : State) (u : TextUnit) : List Event :=
  let t := s.block.toText
  s.startEvents ++ stopEvents t ++ (t.start.toList.map fun i => .blockStart i .text)
    ++ [.blockDelta (t.state.index?.getD 0) (.text u.text)]

/-- The events of a tool call. -/
def toolEvents (s : State) (u : ToolUnit) : List Event :=
  let t := s.block.toTool
  let i := t.start.getD 0
  s.startEvents ++ stopEvents t
    ++ [.blockStart i (.toolUse u.callId u.toolName), .blockDelta i (.inputJson u.arguments)]

/-- The events that end the message. -/
def closeEvents (s : State) : List Event :=
  s.startEvents ++ stopEvents s.block.toClosed
    ++ [.messageDelta (if s.endedWithTool then .toolUse else .endTurn) s.outputTokens, .messageStop]

/-- The state after a unit that goes into a block. -/
def afterUnit (s : State) (block : BlockState) (isTool : Bool) : State :=
  { s with block := block, started := true, endedWithTool := isTool, outputTokens := s.outputTokens + 1 }

end State

instance : Framer State where
  provider _ := .anthropic
  text s u := (s.afterUnit s.block.toText.state false, (s.textEvents u).map Event.frame)
  toolCall s u := (s.afterUnit s.block.toTool.state true, (s.toolEvents u).map Event.frame)
  close s := ({ s with block := s.block.toClosed.state, started := true },
    s.closeEvents.map Event.frame)

end ScriptedModel.Stream.Anthropic
