/-
The Gemini wire format: one JSON document for each unit, on a line of its own; the last document
says so and ends the text without a line feed.
-/
import ScriptedModel.Stream.Framer
import ScriptedModel.Stream.ToolStore

namespace ScriptedModel.Stream.Gemini

open Json (Value)

/-- What a document holds. -/
inductive Part
  | text (content : String)
  | functionCall (name : String) (args : Value)
  deriving Repr

/-- A document of the stream. -/
structure Document where
  part : Part
  terminal : Bool
  deriving Repr

/-- A part as JSON. -/
def Part.toJson : Part → Value
  | .text content => .object [("text", .string content)]
  | .functionCall name args =>
    .object [("functionCall", .object [("args", args), ("name", .string name)])]

namespace Document

/-- The only candidate of a document as JSON. -/
def candidate (d : Document) : Value :=
  .object ([("content", .object [("parts", .array [d.part.toJson]), ("role", .string "model")])]
    ++ (if d.terminal then [("finishReason", .string "STOP")] else []) ++ [("index", .nat 0)])

/-- The document as JSON. -/
def toJson (d : Document) : Value := .object [("candidates", .array [d.candidate])]

/-- The frame of a document. -/
def frame (d : Document) : String := d.toJson.compact ++ (if d.terminal then "" else "\n")

end Document

/-- A Gemini framer has nothing to remember. -/
inductive State
  | ready
  deriving DecidableEq, Repr

/-- The document of a chunk of text. -/
def textDocument (u : TextUnit) : Document := ⟨.text u.text, u.terminal⟩

/-- The document of a tool call. -/
def toolDocument (u : ToolUnit) : Document :=
  ⟨.functionCall u.toolName (structuredArguments u.arguments), u.terminal⟩

instance : Framer State where
  provider _ := .gemini
  text s u := (s, [(textDocument u).frame])
  toolCall s u := (s, [(toolDocument u).frame])
  close s := (s, [])

end ScriptedModel.Stream.Gemini
