/-
The lists of models that the services publish, each in the shape of its service.
-/
import ScriptedModel.Json.Value
import ScriptedModel.Stream.Provider

namespace ScriptedModel.Http.Models

open Json (Value)

/-! ## OpenAI -/

/-- A model of the first service: its name, the time of its making and its owner. -/
structure OwnedModel where
  id : String
  created : Nat
  owner : String
  deriving DecidableEq, Repr

/-- The models of the first service. -/
def owned : List OwnedModel :=
  [⟨"gpt-4o", 1715367049, "system"⟩, ⟨"gpt-4o-mini", 1721172741, "system"⟩,
    ⟨"gpt-4-turbo", 1712361441, "system"⟩, ⟨"gpt-4", 1687882411, "openai"⟩,
    ⟨"gpt-3.5-turbo", 1677610602, "openai"⟩, ⟨"o1-preview", 1725648070, "system"⟩,
    ⟨"o1-mini", 1725648069, "system"⟩]

/-- A model as it stands in the list. -/
def OwnedModel.toJson (m : OwnedModel) : Value :=
  .sorted [("id", .string m.id), ("object", .string "model"), ("created", .nat m.created),
    ("owned_by", .string m.owner)]

/-! ## Anthropic -/

/-- A model of the second service: its name, its title and the day of its making. -/
structure TitledModel where
  id : String
  title : String
  created : String
  deriving DecidableEq, Repr

/-- The models of the second service. -/
def titled : List TitledModel :=
  [⟨"claude-sonnet-4-5-20250929", "Claude Sonnet 4.5", "2025-09-29T00:00:00Z"⟩,
    ⟨"claude-sonnet-4-20250514", "Claude Sonnet 4", "2025-05-14T00:00:00Z"⟩,
    ⟨"claude-3-5-sonnet-20241022", "Claude 3.5 Sonnet", "2024-10-22T00:00:00Z"⟩,
    ⟨"claude-3-5-haiku-20241022", "Claude 3.5 Haiku", "2024-10-22T00:00:00Z"⟩,
    ⟨"claude-3-opus-20240229", "Claude 3 Opus", "2024-02-29T00:00:00Z"⟩]

/-- A model as it stands in the list. -/
def TitledModel.toJson (m : TitledModel) : Value :=
  .sorted [("id", .string m.id), ("display_name", .string m.title),
    ("created_at", .string m.created), ("type", .string "model")]

/-! ## Gemini -/

/-- A model of the third service: its name, its title, what it is for, how much it reads and how
many candidates it weighs. -/
structure DescribedModel where
  id : String
  title : String
  description : String
  inputLimit : Nat
  topK : Nat
  deriving DecidableEq, Repr

/-- The models of the third service. -/
def described : List DescribedModel :=
  [⟨"gemini-2.5-flash", "Gemini 2.5 Flash",
      "Fast and versatile performance across a diverse variety of tasks", 1048576, 64⟩,
    ⟨"gemini-2.0-flash-exp", "Gemini 2.0 Flash Experimental",
      "Experimental multimodal model with advanced capabilities", 1048576, 40⟩,
    ⟨"gemini-1.5-pro", "Gemini 1.5 Pro",
      "Mid-size multimodal model that supports up to 2 million tokens", 2097152, 64⟩,
    ⟨"gemini-1.5-flash", "Gemini 1.5 Flash",
      "Fast and versatile multimodal model for scaling across diverse tasks", 1048576, 64⟩,
    ⟨"gemini-1.5-flash-8b", "Gemini 1.5 Flash-8B",
      "Smaller, faster model for high-frequency tasks", 1048576, 40⟩]

/-- A quotient of small numbers as a number. -/
def quotient (n d : Nat) : Value :=
  ((Magnitude.nearest? n d).map fun m => Value.number (.double ⟨false, m⟩)).getD .null

/-- A model as it stands in the list. -/
def DescribedModel.toJson (m : DescribedModel) : Value :=
  .sorted [("name", .string ("models/" ++ m.id)), ("displayName", .string m.title),
    ("description", .string m.description), ("inputTokenLimit", .nat m.inputLimit),
    ("outputTokenLimit", .nat 8192),
    ("supportedGenerationMethods",
      .array [.string "generateContent", .string "streamGenerateContent", .string "countTokens"]),
    ("temperature", quotient 1 1), ("maxTemperature", quotient 2 1), ("topP", quotient 95 100),
    ("topK", .nat m.topK)]

/-! ## Lists -/

/-- The list of models that a service publishes. -/
def list : Stream.Provider → Value
  | .openAi => .sorted [("object", .string "list"), ("data", .array (owned.map OwnedModel.toJson))]
  | .anthropic =>
    .sorted [("data", .array (titled.map TitledModel.toJson)),
      ("first_id", .text? (titled.head?.map TitledModel.id)), ("has_more", .bool false),
      ("last_id", .text? (titled.getLast?.map TitledModel.id))]
  | .gemini => .sorted [("models", .array (described.map DescribedModel.toJson))]

end ScriptedModel.Http.Models
