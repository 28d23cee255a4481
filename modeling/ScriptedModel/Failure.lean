/-
The ways in which a request or a start of the server can fail, with the status, the kind and the
text by which a client is told.
-/
import ScriptedModel.Json.Writer
import ScriptedModel.Script.Diagnostic

namespace ScriptedModel

/-- Why something is refused. What is malformed is told with the words of the reader of its format. -/
inductive Failure
  | configuration (message : String)
  | script (error : Script.ParseError)
  | badRequest (message : String)
  | unauthorized (message : String)
  | notFound (message : String)
  | malformedJson (words : String)
  | malformedYaml (words : String)
  | inputOutput (message : String)
  deriving DecidableEq, Repr

namespace Failure

/-- The text shown for a failure. -/
def message : Failure → String
  | .configuration m => "Configuration error: " ++ m
  | .script e => e.display
  | .badRequest m => m
  | .unauthorized m => m
  | .notFound m => m
  | .malformedJson w => "Serialization error: " ++ w
  | .malformedYaml w => "YAML serialization error: " ++ w
  | .inputOutput m => "IO error: " ++ m

/-- The status of the reply that tells of a failure. -/
def status : Failure → Nat
  | .script _ | .badRequest _ | .malformedJson _ => 400
  | .unauthorized _ => 401
  | .notFound _ => 404
  | .configuration _ | .malformedYaml _ | .inputOutput _ => 500

/-- The name of the kind of failure. -/
def kind : Failure → String
  | .script _ => "parse_error"
  | .badRequest _ | .malformedJson _ => "invalid_request_error"
  | .unauthorized _ => "authentication_error"
  | .notFound _ => "not_found_error"
  | .configuration _ | .malformedYaml _ | .inputOutput _ => "internal_error"

/-- The body of the reply that tells of a failure. -/
def toJson (f : Failure) : Json.Value :=
  .object [("error", .object [("message", .string f.message), ("type", .string f.kind)])]

end Failure

end ScriptedModel
