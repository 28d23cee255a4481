/-
The three services whose wire formats are spoken, and the identifiers they give out. An identifier
is a stem, which tells what it names, and a tag that is made anew for it.
-/

namespace ScriptedModel.Stream

/-- A family of wire formats. -/
inductive Provider
  | openAi
  | anthropic
  | gemini
  deriving DecidableEq, Repr

/-- What an identifier names. -/
inductive Identifier.Kind
  | completion
  | message
  | call
  | toolUse
  deriving DecidableEq, Repr

namespace Identifier

/-- The text that identifiers of a kind begin with. -/
def Kind.stem : Kind → String
  | .completion => "chatcmpl-"
  | .message => "msg_"
  | .call => "call_"
  | .toolUse => "toolu_"

end Identifier

namespace Provider

/-- All providers. -/
def all : List Provider := [.openAi, .anthropic, .gemini]

/-- The name of a provider. -/
def name : Provider → String
  | .openAi => "openai"
  | .anthropic => "anthropic"
  | .gemini => "gemini"

/-- The provider of a name. -/
def ofName? (s : String) : Option Provider := all.find? (fun p => p.name == s)

/-- The content type of a streamed reply. -/
def contentType : Provider → String
  | .openAi => "text/event-stream"
  | .anthropic => "text/event-stream"
  | .gemini => "application/json"

/-- What identifiers of tool calls name. -/
def callKind : Provider → Identifier.Kind
  | .openAi => .call
  | .anthropic => .toolUse
  | .gemini => .call

/-- What the identifier of a whole reply names, if the reply has one. -/
def replyKind? : Provider → Option Identifier.Kind
  | .openAi => some .completion
  | .anthropic => some .message
  | .gemini => none

/-- The identifier of a tool call with a tag. -/
def callId (p : Provider) (tag : String) : String := p.callKind.stem ++ tag

/-- The identifier of a whole reply with a tag; a reply that has none is given the empty text. -/
def replyId (p : Provider) (tag : String) : String := p.replyKind?.elim "" fun k => k.stem ++ tag

end Provider

end ScriptedModel.Stream
