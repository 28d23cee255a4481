/-
What a framer is: a state machine that turns each unit of output into complete wire frames. The
units of a response are chunks of text and tool calls; the first and the last are marked.
-/
import ScriptedModel.Stream.Provider

namespace ScriptedModel.Stream

/-- A chunk of text. -/
structure TextUnit where
  text : String
  first : Bool
  terminal : Bool
  deriving DecidableEq, Repr

/-- A tool call, with the size that formats which stream arguments cut them with. -/
structure ToolUnit where
  callId : String
  toolName : String
  arguments : String
  chunkSize : Nat
  first : Bool
  terminal : Bool
  deriving DecidableEq, Repr

/-- A state machine that frames the units of a response. -/
class Framer (σ : Type) where
  provider : σ → Provider
  text : σ → TextUnit → σ × List String
  toolCall : σ → ToolUnit → σ × List String
  close : σ → σ × List String

end ScriptedModel.Stream
