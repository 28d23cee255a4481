/-
The tool calls that were streamed, kept under their call identifiers. Arguments that spell a JSON
object are kept as that object too; any others are wrapped in one.
-/
import ScriptedModel.Json.Document
import ScriptedModel.Json.Writer
import ScriptedModel.Stream.Provider

namespace ScriptedModel.Stream

open Json (Value)

/-- The object that raw arguments spell, or an object that holds them as its value. -/
def structuredArguments (raw : String) : Value :=
  match Value.ofText? raw with
  | some (.object ms) => .object ms
  | _ => .object [("value", .string raw)]

/-- What is kept of a tool call. -/
structure StoredResponse where
  callId : String
  toolName : String
  arguments : String
  parsedArguments : Value
  provider : Provider
  createdAt : String
  deriving Repr

namespace StoredResponse

/-- What is kept of a call with raw arguments at an instant. -/
def ofCall (callId toolName arguments : String) (provider : Provider) (createdAt : String) :
    StoredResponse :=
  ⟨callId, toolName, arguments, structuredArguments arguments, provider, createdAt⟩

/-- The response as a JSON object. -/
def toJson (r : StoredResponse) : Value :=
  .object [("callId", .string r.callId), ("toolName", .string r.toolName),
    ("arguments", .string r.arguments), ("parsedArguments", r.parsedArguments),
    ("provider", .string r.provider.name), ("createdAt", .string r.createdAt)]

end StoredResponse

/-- The responses kept, each under its key, in the order in which the keys were first used. -/
structure ToolStore where
  entries : List (String × StoredResponse)
  deriving Repr

namespace ToolStore

/-- The store that keeps nothing. -/
def empty : ToolStore := ⟨[]⟩

/-- The response kept under a key. -/
def get? (s : ToolStore) (key : String) : Option StoredResponse :=
  (s.entries.find? (fun e => e.1 == key)).map Prod.snd

/-- Replaces the response of a key in place, or adds it at the end. -/
def putEntry (key : String) (r : StoredResponse) :
    List (String × StoredResponse) → List (String × StoredResponse)
  | [] => [(key, r)]
  | e :: es => if e.1 = key then (key, r) :: es else e :: putEntry key r es

/-- Keeps a response under a key, in place of any before it. -/
def put (s : ToolStore) (key : String) (r : StoredResponse) : ToolStore := ⟨putEntry key r s.entries⟩

/-- Keeps responses under their call identifiers, one after another. -/
def putAll (s : ToolStore) (rs : List StoredResponse) : ToolStore :=
  rs.foldl (fun s r => s.put r.callId r) s

/-- The number of keys. -/
def size (s : ToolStore) : Nat := s.entries.length

end ToolStore

end ScriptedModel.Stream
