/-
The routes of the server: which paths lead where, and by which method. A segment of a path that is
a parameter is any text, but not the empty one where it stands last.
-/
import ScriptedModel.Http.Message

namespace ScriptedModel.Http

/-- Where a path leads, with the segment that is a parameter. -/
inductive Route
  | health
  | chatCompletions
  | deploymentCompletions (deployment : List Char)
  | modelCompletions (model : List Char)
  | messages
  | generateContent (modelAction : List Char)
  | modelList
  | toolResponse (callId : List Char)
  deriving DecidableEq, Repr

namespace Route

/-- The route of the segments of a path. -/
def ofSegments? : List String → Option Route
  | ["health"] => some .health
  | ["v1", "chat", "completions"] => some .chatCompletions
  | ["openai", "deployments", d, "chat", "completions"] => some (.deploymentCompletions d.toList)
  | ["openai", "models", m, "chat", "completions"] => some (.modelCompletions m.toList)
  | ["v1", "messages"] => some .messages
  | ["v1", "models"] | ["v1beta", "models"] | ["openai", "models"] | ["openai", "deployments"] =>
    some .modelList
  | ["v1", "models", a] | ["v1beta", "models", a] =>
    if a = "" then none else some (.generateContent a.toList)
  | ["v1", "tool-responses", c] => if c = "" then none else some (.toolResponse c.toList)
  | _ => none

/-- The route of a path. -/
def ofPath? (path : String) : Option Route :=
  match path.toList with
  | '/' :: cs => ofSegments? ((Split.pieces '/' cs).map String.ofList)
  | _ => none

/-- Whether a route is asked by sending it a body. -/
def isPosted : Route → Bool
  | .chatCompletions | .deploymentCompletions _ | .modelCompletions _ | .messages
  | .generateContent _ => true
  | .health | .modelList | .toolResponse _ => false

/-- Whether a route asks for a key where keys are configured. -/
def isGuarded (r : Route) : Bool := r ≠ .health

/-- Whether a route knows a method. -/
def allows (r : Route) (method : String) : Bool :=
  if r.isPosted then method = "POST" else method = "GET" || method = "HEAD"

/-- The methods that a route knows. -/
def allowed (r : Route) : String := if r.isPosted then "POST" else "GET,HEAD"

end Route

end ScriptedModel.Http
