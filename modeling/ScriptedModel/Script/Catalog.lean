/-
The catalog of the script language: what each keyword does, the parameters it takes and the
bounds of those that are numbers.
-/
import ScriptedModel.Script.Keyword

namespace ScriptedModel.Script

/-- What an operand of a statement has to be. -/
inductive ParamKind
  | text
  | number
  deriving DecidableEq, Repr

/-- A parameter of a statement; a bound that is absent admits every value. -/
structure Param where
  name : String
  kind : ParamKind
  lowest : Option Nat
  highest : Option Nat
  deriving DecidableEq, Repr

namespace Param

/-- A parameter that takes any text. -/
def ofText (name : String) : Param := ⟨name, .text, none, none⟩

/-- A parameter that takes a number between two bounds. -/
def ofNumber (name : String) (lowest highest : Nat) : Param := ⟨name, .number, some lowest, some highest⟩

/-- The value within the bounds that is nearest to a value. -/
def clamp (p : Param) (value : Nat) : Nat :=
  let raised := p.lowest.elim value (max value)
  p.highest.elim raised (min raised)

/-- Whether a value lies within the bounds. -/
def accepts (p : Param) (value : Nat) : Bool := p.clamp value = value

/-- The number of characters in a chunk. -/
def size : Param := ofNumber "size" 1 1000

/-- The milliseconds between two chunks. -/
def latency : Param := ofNumber "latency" 0 10000

/-- The least milliseconds of a random pause. -/
def minimum : Param := ofNumber "min" 0 10000

/-- The most milliseconds of a random pause. -/
def maximum : Param := ofNumber "max" 0 10000

end Param

namespace Keyword

/-- What a keyword does, in a sentence. -/
def description : Keyword → String
  | .say => "Outputs text content as a streaming response"
  | .toolCall => "Invokes a tool/function with specified arguments"
  | .chunkSize => "Sets the chunk size for subsequent SAY statements"
  | .chunkLatency => "Sets the delay in milliseconds between chunks"
  | .randomLatency => "Sets a random delay range in milliseconds between chunks"

/-- The parameters a keyword takes, in order. -/
def params : Keyword → List Param
  | .say => [.ofText "content"]
  | .toolCall => [.ofText "toolName", .ofText "arguments"]
  | .chunkSize => [.size]
  | .chunkLatency => [.latency]
  | .randomLatency => [.minimum, .maximum]

/-- The parameter of a keyword that has exactly this name. -/
def param? (k : Keyword) (name : String) : Option Param := k.params.find? (fun p => p.name == name)

end Keyword

namespace Catalog

/-- The version of the language that the catalog describes. -/
def version : String := "1.1.0"

end Catalog

end ScriptedModel.Script
