/-
Configurations read from a document. Every section and every field may be left out and then has
its default; unknown fields are passed over. What a record, a text, a number, a truth value and a
list look like is up to the format.
-/
import ScriptedModel.Config.Basic
import ScriptedModel.Field
import ScriptedModel.Json.Record

namespace ScriptedModel.Configuration

/-- How a format shows the parts of a document. -/
class Format (δ : Type) where
  /-- The documents of the fields with these names, in the order of the names. -/
  record? : List String → δ → Option (List (Option δ))
  /-- The items of a list. -/
  items? : δ → Option (List δ)
  /-- A text. -/
  text? : δ → Option String
  /-- A truth value. -/
  truth? : δ → Option Bool
  /-- A natural number up to a bound. -/
  natural? : Nat → δ → Option Nat

/-- JSON as a format of configurations. -/
instance : Format Json.Document where
  record? := Json.Document.record?
  items? d := d.list? some
  text? := Json.Document.string?
  truth? := Json.Document.bool?
  natural? := Json.Document.natural?

variable {δ : Type} [Format δ]

/-- Reads a number of 16 bits. -/
def word16? (d : δ) : Option UInt16 := (Format.natural? (UInt16.size - 1) d).map Nat.toUInt16

/-- Reads a number of 64 bits. -/
def word64? (d : δ) : Option UInt64 := (Format.natural? (UInt64.size - 1) d).map Nat.toUInt64

/-- Reads the section on listening. -/
def Listening.ofDocument? (d : δ) : Option Listening := do
  match ← Format.record? ["host", "port", "cors_enabled"] d with
  | [host, port, cors] =>
    return ⟨← Field.readOr Listening.default.host Format.text? host,
      ← Field.readOr Listening.default.port word16? port,
      ← Field.readOr Listening.default.anyOrigin Format.truth? cors⟩
  | _ => none

/-- Reads the section on streaming. -/
def Streaming.ofDocument? (d : δ) : Option Streaming := do
  match ← Format.record? ["default_chunk_latency_ms", "default_model", "channel_capacity"] d with
  | [latency, model, capacity] =>
    return ⟨← Field.readOr Streaming.default.latency word64? latency,
      ← Field.readOr Streaming.default.model Format.text? model,
      ← Field.readOr Streaming.default.capacity word64? capacity⟩
  | _ => none

/-- Reads the keys. -/
def keys? (d : δ) : Option (List String) := do
  (← Format.items? d).mapM Format.text?

/-- Reads the section on security. -/
def securityKeys? (d : δ) : Option (List String) := do
  match ← Format.record? ["api_keys"] d with
  | [keys] => Field.readOr [] keys? keys
  | _ => none

/-- Reads a configuration. -/
def ofDocument? (d : δ) : Option Configuration := do
  match ← Format.record? ["server", "streaming", "security"] d with
  | [server, streaming, security] =>
    return ⟨← Field.readOr .default Listening.ofDocument? server,
      ← Field.readOr .default Streaming.ofDocument? streaming,
      ← Field.readOr [] securityKeys? security⟩
  | _ => none

/-- The configuration that a JSON text spells; a text that spells none is refused in the words of the reader. -/
def ofJson (words text : String) : Except Failure Configuration :=
  ((Json.Document.ofSource? (Json.sourceOf text)).bind ofDocument?).elim (.error (.malformedJson words)) .ok

end ScriptedModel.Configuration
