/-
The script in a request. A chat request is a list of messages, of which the last by the user holds
the script; a generation request is a list of turns, where a turn without a role counts as the
user's. Everything else that a client may send is passed over.
-/
import ScriptedModel.Failure
import ScriptedModel.Field
import ScriptedModel.Json.Record

namespace ScriptedModel.Http

open Json (Document)

/-! ## Chat requests -/

/-- A part of a message. -/
structure Part where
  kind? : Option String
  text? : Option String
  deriving DecidableEq, Repr

/-- What a message says. -/
inductive Content
  | text (text : String)
  | parts (parts : List Part)
  deriving DecidableEq, Repr

/-- A message of a conversation. -/
structure Message where
  role : String
  content : Content
  deriving DecidableEq, Repr

/-- A conversation to be continued, and the model that is asked to. -/
structure ChatRequest where
  model? : Option String
  messages? : Option (List Message)
  deriving DecidableEq, Repr

/-- The role of the one who asks. -/
def userRole : String := "user"

/-- Whether a part is text; a part that does not say what it is counts as text. -/
def Part.isText (p : Part) : Bool := p.kind?.all (fun k => k == "text")

/-- The text of a message; the texts of its parts stand on lines of their own. -/
def Content.prompt : Content → String
  | .text t => t
  | .parts ps => "\n".intercalate ((ps.filter Part.isText).filterMap Part.text?)

/-- The script of a chat request. -/
def ChatRequest.prompt (r : ChatRequest) : Except Failure String :=
  match r.messages?.getD [] with
  | [] => .error (.badRequest "Messages array is required")
  | ms =>
    match ms.reverse.find? (fun m => m.role == userRole) with
    | some m => .ok m.content.prompt
    | none => .error (.badRequest "At least one user message is required")

/-! ## Generation requests -/

/-- A turn of a conversation: the texts of its parts, some of which have none. -/
structure Turn where
  role? : Option String
  parts : List (Option String)
  deriving DecidableEq, Repr

/-- A conversation to be continued. -/
structure GenerationRequest where
  contents? : Option (List Turn)
  deriving DecidableEq, Repr

/-- The text of a turn: the texts of its parts that are not empty, on lines of their own. -/
def Turn.prompt (t : Turn) : String := "\n".intercalate (t.parts.reduceOption.filter (fun s => s ≠ ""))

/-- The script of a generation request. -/
def GenerationRequest.prompt (r : GenerationRequest) : Except Failure String :=
  match r.contents?.getD [] with
  | [] => .error (.badRequest "Contents array is required")
  | ts =>
    match ts.reverse.find? (fun t => t.role?.all (fun k => k == userRole)) with
    | some t => .ok t.prompt
    | none => .error (.badRequest "At least one user content is required")

/-! ## Reading -/

/-- How deep a message's content may nest, standing inside three containers. -/
def contentNesting : Nat := Document.nestingLimit - 3

/-- Reads a part of a message. -/
def Part.ofDocument? (d : Document) : Option Part := do
  match ← d.record? ["type", "text"] with
  | [kind, text] =>
    return ⟨← Field.readOr none (Document.nullable? Document.string?) kind,
      ← Field.readOr none (Document.nullable? Document.string?) text⟩
  | _ => none

/-- Reads the content of a message, every part of which has to be a value. -/
def Content.ofDocument? (d : Document) : Option Content :=
  match d.value? contentNesting with
  | none => none
  | some _ =>
    match d.string? with
    | some t => some (.text t)
    | none => (d.list? Part.ofDocument?).map .parts

/-- Reads a message; it must have a role. -/
def Message.ofDocument? (d : Document) : Option Message := do
  match ← d.record? ["role", "content"] with
  | [some role, content] =>
    return ⟨← role.string?, ← Field.readOr (.text "") Content.ofDocument? content⟩
  | _ => none

/-- Reads a chat request. -/
def ChatRequest.ofDocument? (d : Document) : Option ChatRequest := do
  match ← d.record? ["model", "messages"] with
  | [model, messages] =>
    return ⟨← Field.readOr none (Document.nullable? Document.string?) model,
      ← Field.readOr none (Document.nullable? (Document.list? Message.ofDocument?)) messages⟩
  | _ => none

/-- Reads the text of a part of a turn. -/
def Turn.partText? (d : Document) : Option (Option String) := do
  match ← d.record? ["text"] with
  | [text] => Field.readOr none (Document.nullable? Document.string?) text
  | _ => none

/-- Reads a turn. -/
def Turn.ofDocument? (d : Document) : Option Turn := do
  match ← d.record? ["role", "parts"] with
  | [role, parts] =>
    return ⟨← Field.readOr none (Document.nullable? Document.string?) role,
      ← Field.readOr [] (Document.list? Turn.partText?) parts⟩
  | _ => none

/-- Reads a generation request. -/
def GenerationRequest.ofDocument? (d : Document) : Option GenerationRequest := do
  match ← d.record? ["contents"] with
  | [contents] =>
    return ⟨← Field.readOr none (Document.nullable? (Document.list? Turn.ofDocument?)) contents⟩
  | _ => none

/-- The chat request that a body spells; one that spells none is refused in the words of the reader. -/
def ChatRequest.ofBody (words : String) (r : Json.Source) : Except Failure ChatRequest :=
  ((Document.ofSource? r).bind ChatRequest.ofDocument?).elim (.error (.malformedJson words)) .ok

/-- The generation request that a body spells; one that spells none is refused in the words of the reader. -/
def GenerationRequest.ofBody (words : String) (r : Json.Source) : Except Failure GenerationRequest :=
  ((Document.ofSource? r).bind GenerationRequest.ofDocument?).elim (.error (.malformedJson words)) .ok

end ScriptedModel.Http
