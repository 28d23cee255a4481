/-
The schedule of a response: the actions that streaming a list of commands takes, in order. Text is
cut into chunks, each but the first unit of the response after a pause; a tool call is stored before
its frames are sent and never waits. A response without commands streams a notice.
-/
import ScriptedModel.Stream.Anthropic
import ScriptedModel.Stream.Gemini
import ScriptedModel.Stream.OpenAi
import ScriptedModel.Stream.Pacing

namespace ScriptedModel.Stream

open Script (Command)

/-- One thing that streaming a response does. -/
inductive Action
  | pause (milliseconds : Nat)
  | store (response : StoredResponse)
  | send (frame : String)
  deriving Repr

/-- What a response depends on besides its commands: the model it names, the pause where commands ask
for none, the second in which it begins, the identifier and the moment of each of its tool calls and the
random draw for each of its commands. -/
structure Context where
  model : String
  defaultLatency : Nat
  created : Nat
  callId : Nat → String
  callTime : Nat → String
  draw : Nat → Nat

/-- The text streamed when there are no commands. -/
def emptyNotice : String := "No valid commands found in prompt"

section Walk

variable {σ : Type} [Framer σ]

/-- How far a response has come: the state of its framer, whether its first unit is still to come,
and the numbers of commands and of tool calls so far. -/
structure Progress (σ : Type) where
  framer : σ
  first : Bool
  commands : Nat
  calls : Nat

/-- The actions of the chunks of a text; the last chunk of the last command is terminal. -/
def textActions (pause : Nat) (isLast : Bool) : Bool → σ → List String → List Action × σ
  | _, s, [] => ([], s)
  | first, s, chunk :: rest =>
    let framed := Framer.text s ⟨chunk, first, isLast && rest.isEmpty⟩
    let later := textActions pause isLast false framed.1 rest
    ((if first then [] else [.pause pause]) ++ framed.2.map .send ++ later.1, later.2)

/-- The actions of a command in a response of a provider. -/
def commandActions (x : Context) (provider : Provider) (p : Progress σ) (isLast : Bool) (c : Command) :
    List Action × Progress σ :=
  match c.directive with
  | .say content =>
    let pause := latency x.defaultLatency (x.draw p.commands) c.settings
    let chunks := chunkText content (effectiveSize content c.settings.chunkSize)
    let (actions, s) := textActions pause isLast p.first p.framer chunks
    (actions, ⟨s, false, p.commands + 1, p.calls⟩)
  | .toolCall toolName arguments =>
    let callId := x.callId p.calls
    let size := effectiveSize arguments c.settings.chunkSize
    let framed := Framer.toolCall p.framer ⟨callId, toolName, arguments, size, p.first, isLast⟩
    let response := StoredResponse.ofCall callId toolName arguments provider (x.callTime p.calls)
    (.store response :: framed.2.map .send, ⟨framed.1, false, p.commands + 1, p.calls + 1⟩)

/-- The actions of a list of commands that ends the response. -/
def commandsActions (x : Context) (provider : Provider) (p : Progress σ) :
    List Command → List Action × Progress σ
  | [] => ([], p)
  | c :: cs =>
    let (now, q) := commandActions x provider p cs.isEmpty c
    let (later, r) := commandsActions x provider q cs
    (now ++ later, r)

/-- The actions that close a response. -/
def closeActions (s : σ) : List Action := (Framer.close s).2.map .send

/-- The actions of a whole response; its provider is that of the framer before the first unit. -/
def schedule (x : Context) (s : σ) (cs : List Command) : List Action :=
  if cs.isEmpty then
    let framed := Framer.text s ⟨emptyNotice, true, true⟩
    framed.2.map .send ++ closeActions framed.1
  else
    let (actions, p) := commandsActions x (Framer.provider s) ⟨s, true, 0, 0⟩ cs
    actions ++ closeActions p.framer

end Walk

/-- The actions of a response in the format of a provider; the identifier names the reply. -/
def Provider.schedule (p : Provider) (x : Context) (replyId : String) (cs : List Command) : List Action :=
  match p with
  | .openAi => Stream.schedule x (OpenAi.State.initial replyId x.created x.model) cs
  | .anthropic => Stream.schedule x (Anthropic.State.initial replyId x.model) cs
  | .gemini => Stream.schedule x Gemini.State.ready cs

end ScriptedModel.Stream
