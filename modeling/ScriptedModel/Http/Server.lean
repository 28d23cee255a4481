/-
The server: a step from a request to a new state and a response, which fails to come where a reply is to
be streamed and there is no channel to stream it through. The state is the tool calls that were streamed;
only a reply that is streamed changes it.
-/
import ScriptedModel.Config.Basic
import ScriptedModel.Http.Credentials
import ScriptedModel.Http.Models
import ScriptedModel.Http.Prompt
import ScriptedModel.Http.Route
import ScriptedModel.Script.Parser
import ScriptedModel.Stream.Channel
import ScriptedModel.Stream.Collector

namespace ScriptedModel.Http

open ScriptedModel.Stream (Provider)

/-- A moment, in seconds and as a text. -/
structure Clock where
  seconds : Nat
  text : String
  deriving DecidableEq, Repr

/-- What is given anew for each request: the moment, the random draws for the commands of a script, an
identifier for a request that has none, the tags that tell its reply and the calls in it from all others,
the moment of each of these calls as a text, and the words in which the reader of JSON refuses its body if
it does. -/
structure Occasion where
  clock : Clock
  draw : Nat → Nat
  requestId : String
  replyTag : String
  callTag : Nat → String
  callTime : Nat → String
  refusal : String

/-- The tool calls that were streamed. -/
structure State where
  store : Stream.ToolStore
  deriving Repr

/-- The state of a server that was asked nothing. -/
def State.initial : State := ⟨.empty⟩

/-- Why a request is turned down: a failure that is told as JSON, a parameter of the path that is no
text, or a body that is too large. -/
inductive Rejection
  | failure (failure : Failure)
  | unreadable (parameter : String)
  | tooLarge
  deriving DecidableEq, Repr

/-- The response that tells of a rejection. -/
def Rejection.response : Rejection → Response
  | .failure f => .ofFailure f
  | .unreadable p => .immediate 400 textType ("Invalid URL: Invalid UTF-8 in \x60" ++ p ++ "\x60")
  | .tooLarge => .immediate 413 textType "Failed to buffer the request body: length limit exceeded"

/-! ## What a request brings -/

/-- The number of bytes of the largest body that is read. -/
def bodyLimit : Nat := 2 * 1024 * 1024

/-- The body of a request, to be read as JSON. -/
def Request.source (q : Request) : Except Rejection Json.Source :=
  if bodyLimit < q.body.length then .error .tooLarge else .ok (Utf8.decode q.body)

/-- The text of a parameter of the path. -/
def parameter (name : String) (segment : List Char) : Except Rejection (List Char) :=
  (Percent.decode? segment).elim (.error (.unreadable name)) .ok

/-- A result whose failure is told as JSON. -/
def orReject {α : Type} : Except Failure α → Except Rejection α
  | .ok a => .ok a
  | .error f => .error (.failure f)

/-- The actions that a Gemini model may be asked for. -/
def modelActions : List String := ["generateContent", "streamGenerateContent"]

/-- The model of a segment that names a model and one of its actions. -/
def modelOfAction (segment : List Char) : Except Failure String :=
  match Split.atFirst? ':' segment with
  | none => .error (.notFound ("Unknown model route '" ++ String.ofList segment ++ "'"))
  | some (model, action) =>
    if modelActions.contains (String.ofList action) then .ok (String.ofList model)
    else .error (.notFound ("Unsupported Gemini method '" ++ String.ofList action ++ "'"))

/-! ## Streaming -/

/-- The model that a reply names: the one asked for, if it has a name, else the default. -/
def resolvedModel (c : Configuration) (asked? : Option String) : String :=
  (asked?.filter (· ≠ "")).getD c.streaming.model

/-- The actions of the reply to a list of commands. -/
def replyActions (c : Configuration) (o : Occasion) (p : Provider) (asked? : Option String)
    (commands : List Script.Command) : List Stream.Action :=
  let x : Stream.Context :=
    ⟨resolvedModel c asked?, c.streaming.latency.toNat, o.clock.seconds, fun n => p.callId (o.callTag n),
      o.callTime, o.draw⟩
  p.schedule x (p.replyId o.replyTag) commands

/-- The state after a reply. -/
def State.after (s : State) (run : Stream.Run Stream.Collector) : State := ⟨s.store.putAll run.stored⟩

/-- Whether there is a channel with the configured room; where none is configured there is room for one
frame. -/
def canStream (c : Configuration) : Bool := max 1 c.streaming.capacity.toNat ≤ Stream.Channel.largest

/-- The response that streams what a run has put out. -/
def Response.ofRun (p : Provider) (run : Stream.Run Stream.Collector) : Response :=
  ⟨200, [("content-type", p.contentType), ("cache-control", "no-cache")], run.collector.body, run.pauses⟩

/-- The reply to a list of commands, to a reader that reads it to the end. Where there is no channel for it
the request is never answered. -/
def reply (c : Configuration) (s : State) (o : Occasion) (p : Provider) (asked? : Option String)
    (commands : List Script.Command) : State × Option Response :=
  if canStream c then
    let run := Stream.perform (.empty none) (replyActions c o p asked? commands)
    (s.after run, some (.ofRun p run))
  else (s, none)

/-- Streams the reply to a script. -/
def streamed (c : Configuration) (s : State) (o : Occasion) (p : Provider) (asked? : Option String)
    (script : String) : Except Failure (State × Option Response) :=
  match Script.parseScript script with
  | .error e => .error (.script e)
  | .ok commands => .ok (reply c s o p asked? commands)

/-- Streams the reply to a chat request; a model in the path is asked for if the body has none. -/
def chat (c : Configuration) (s : State) (o : Occasion) (p : Provider) (pathModel? : Option String)
    (q : Request) : Except Rejection (State × Option Response) := do
  let source ← q.source
  orReject do
    let request ← ChatRequest.ofBody o.refusal source
    let script ← request.prompt
    streamed c s o p (request.model?.or pathModel?) script

/-- Streams the reply to a generation request. -/
def generate (c : Configuration) (s : State) (o : Occasion) (segment : List Char) (q : Request) :
    Except Rejection (State × Option Response) := do
  let source ← q.source
  orReject do
    let model ← modelOfAction segment
    let request ← GenerationRequest.ofBody o.refusal source
    let script ← request.prompt
    streamed c s o .gemini (some model) script

/-! ## Answers -/

/-- The answer to the question how the server does. -/
def health (o : Occasion) : Response :=
  .json (.object [("status", .string "ok"), ("timestamp", .string o.clock.text)])

/-- The tool call of an identifier. -/
def toolResponse (s : State) (callId : String) : Except Failure Response :=
  match s.store.get? callId with
  | some r => .ok (.json r.toJson)
  | none => .error (.notFound ("No tool response for call id '" ++ callId ++ "'"))

/-- The answer of a route to a method that it knows. -/
def answer (c : Configuration) (s : State) (o : Occasion) (r : Route) (q : Request) :
    Except Rejection (State × Option Response) :=
  match r with
  | .health => .ok (s, some (health o))
  | .modelList => .ok (s, some (.json (Models.list (detectedProvider q.headers q.target.query?))))
  | .toolResponse segment => do
    let callId ← parameter "call_id" segment
    return (s, some (← orReject (toolResponse s (String.ofList callId))))
  | .chatCompletions => chat c s o .openAi none q
  | .messages => chat c s o .anthropic none q
  | .deploymentCompletions segment => do
    let deployment ← parameter "deployment" segment
    chat c s o .openAi (some (String.ofList deployment)) q
  | .modelCompletions segment => do
    let model ← parameter "model" segment
    chat c s o .openAi (some (String.ofList model)) q
  | .generateContent segment => do
    let action ← parameter "model_action" segment
    generate c s o action q

/-- The answer to a request, or the state as it was and the rejection. -/
def answered (c : Configuration) (s : State) (o : Occasion) (r : Route) (q : Request) :
    State × Option Response :=
  match answer c s o r q with
  | .ok a => a
  | .error e => (s, some e.response)

/-! ## Keys -/

/-- Refuses a request that presents no configured key. -/
def checkKey (c : Configuration) (q : Request) : Except Failure Unit :=
  match presentedKey? q.headers q.target.query? with
  | none => .error (.unauthorized "Missing API key")
  | some key => if c.accepts key then .ok () else .error (.unauthorized "Invalid API key")

/-- Whether a route of a configuration asks for a key. -/
def asksKey (c : Configuration) (r : Route) : Bool := c.isGuarded && r.isGuarded

/-- The answer of a route: the key is asked for before the method is looked at. -/
def routed (c : Configuration) (s : State) (o : Occasion) (r : Route) (q : Request) :
    State × Option Response :=
  let guard := if asksKey c r then checkKey c q else .ok ()
  match guard, r.allows q.method with
  | .error f, true => (s, some (.ofFailure f))
  | .error f, false => (s, some ((Response.ofFailure f).withHeader "allow" r.allowed))
  | .ok (), false => (s, some ((Response.empty 405).withHeader "allow" r.allowed))
  | .ok (), true => answered c s o r q

/-! ## What all responses share -/

/-- The headers that a cache has to look at. -/
def varyNames : String := "origin, access-control-request-method, access-control-request-headers"

/-- The headers that let pages of any origin read a response. -/
def originHeaders (c : Configuration) (preflight : Bool) : Headers :=
  if ¬ c.listening.anyOrigin then []
  else if preflight then
    [("access-control-allow-origin", "*"), ("access-control-allow-methods", "*"),
      ("access-control-allow-headers", "*")]
  else [("access-control-allow-origin", "*"), ("access-control-expose-headers", "*")]

/-- The headers that every response has; a request keeps its identifier. -/
def sharedHeaders (c : Configuration) (o : Occasion) (q : Request) : Headers :=
  ("vary", varyNames) :: ("x-request-id", (q.headers.get? "x-request-id").getD o.requestId) ::
    originHeaders c (q.method = "OPTIONS")

/-- The response to a question about what may be asked; it is always answered. -/
def preflight (r? : Option Route) : Response :=
  r?.elim (.empty 200) fun r => (Response.empty 200).withHeader "allow" r.allowed

/-- The new state and the response of the routes, without what all responses share. -/
def dispatched (c : Configuration) (s : State) (o : Occasion) (q : Request) : State × Option Response :=
  let r? := Route.ofPath? q.target.path
  if q.method = "OPTIONS" then (s, some (preflight r?))
  else match r? with
    | none => (s, some (.empty 404))
    | some r => routed c s o r q

/-- A response as it is sent. -/
def finished (c : Configuration) (o : Occasion) (q : Request) (r : Response) : Response :=
  let r := if q.method = "HEAD" then r.withoutBody else r
  { r with headers := r.headers ++ sharedHeaders c o q }

/-- The new state and the response to a request, if there is one. -/
def handle (c : Configuration) (s : State) (o : Occasion) (q : Request) : State × Option Response :=
  let (s', r?) := dispatched c s o q
  (s', r?.map (finished c o q))

/-- The responses to requests that come one after another, as far as there are any, and the last state. -/
def handleAll (c : Configuration) (s : State) : List (Occasion × Request) → State × List (Option Response)
  | [] => (s, [])
  | (o, q) :: rest =>
    let (s', r?) := handle c s o q
    let (last, rs) := handleAll c s' rest
    (last, r? :: rs)

end ScriptedModel.Http
