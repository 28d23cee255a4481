/-
Posted requests. What is posted to a route that streams arrives at a chat or at an action of a model.
There it is looked at in this order: is there such an action, does the body spell a request, does the
request say a script, is the script well formed?

Main statement: a server without keys that answers one of these in the negative tells why in one JSON
object, and keeps its state; otherwise it streams all that the script puts out, whatever room there is
between the encoder and the reader, and keeps just the calls of the script besides what it kept before.
Only if it is to have more room than any channel has does it give no answer.
-/
import ScriptedModel.Proofs.Http.Asking
import ScriptedModel.Proofs.Json.Denotation
import ScriptedModel.Proofs.Stream.Storage
import ScriptedModel.Proofs.Stream.Relay

namespace ScriptedModel.Http

open Json (Document)
open Script (Command parseScript)
open ScriptedModel.Stream (Action Collector Provider Relay Run StoredResponse perform)

/-! ## Where requests arrive -/

/-- Where a posted request arrives: at the chat of a provider, with the model that the path names if it
names one, or at the name of a model and an action of it. -/
inductive Endpoint
  | chat (provider : Provider) (pathModel? : Option String)
  | action (name : List Char)
  deriving DecidableEq, Repr

/-- The endpoint of a route that streams, if its parameter is a text. -/
def Route.endpoint? : Route → Option Endpoint
  | .chatCompletions => some (.chat .openAi none)
  | .deploymentCompletions segment | .modelCompletions segment =>
    (Percent.decode? segment).map fun name => .chat .openAi (some (String.ofList name))
  | .messages => some (.chat .anthropic none)
  | .generateContent segment => (Percent.decode? segment).map .action
  | .health | .modelList | .toolResponse _ => none

/-- A request that is posted to an endpoint and is not too large. -/
structure Request.ArrivesAt (q : Request) (e : Endpoint) : Prop where
  method : q.method = "POST"
  endpoint : (Route.ofPath? q.target.path).bind Route.endpoint? = some e
  size : q.body.length ≤ bodyLimit

namespace Endpoint

/-- The provider whose format is spoken at an endpoint. -/
def provider : Endpoint → Provider
  | .chat p _ => p
  | .action _ => .gemini

/-- An endpoint that names no action, or one that no model has, and the text that tells of it. -/
inductive Strays : Endpoint → String → Prop
  | unnamed {name : List Char} (h : ':' ∉ name) :
    Strays (.action name) ("Unknown model route '" ++ String.ofList name ++ "'")
  | unknown {model action : List Char} (hm : ':' ∉ model)
    (ha : String.ofList action ∉ ["generateContent", "streamGenerateContent"]) :
    Strays (.action (model ++ ':' :: action)) ("Unsupported Gemini method '" ++ String.ofList action ++ "'")

end Endpoint

/-- A chat request that says no script, and the text that tells of it. -/
inductive ChatRequest.Lacks (r : ChatRequest) : String → Prop
  | messages (h : r.messages?.getD [] = []) : Lacks r "Messages array is required"
  | user (hsome : r.messages?.getD [] ≠ []) (h : ∀ m ∈ r.messages?.getD [], m.role ≠ "user") :
    Lacks r "At least one user message is required"

/-- A generation request that says no script, and the text that tells of it. -/
inductive GenerationRequest.Lacks (r : GenerationRequest) : String → Prop
  | contents (h : r.contents?.getD [] = []) : Lacks r "Contents array is required"
  | user (hsome : r.contents?.getD [] ≠ [])
    (h : ∀ t ∈ r.contents?.getD [], ∃ role, t.role? = some role ∧ role ≠ "user") :
    Lacks r "At least one user content is required"

/-- A body that spells a request for an endpoint which says no script, and the text that tells of it. -/
def Endpoint.Lacks (e : Endpoint) (source : Json.Source) (text : String) : Prop :=
  match e with
  | .chat _ _ => ∃ r, (Document.ofSource? source).bind ChatRequest.ofDocument? = some r ∧ r.Lacks text
  | .action _ => ∃ r, (Document.ofSource? source).bind GenerationRequest.ofDocument? = some r ∧ r.Lacks text

/-- What a body asks for: the model that is to reply, if one is named, and the script, or why there is
none. -/
structure Inquiry where
  model? : Option String
  script : Except Failure String
  deriving DecidableEq, Repr

/-- What a body asks for at an endpoint, if it spells a request. -/
def Endpoint.inquiry? (e : Endpoint) (source : Json.Source) : Option Inquiry :=
  match e with
  | .chat _ pathModel? =>
    ((Document.ofSource? source).bind ChatRequest.ofDocument?).map fun r => ⟨r.model?.or pathModel?, r.prompt⟩
  | .action name =>
    ((Document.ofSource? source).bind GenerationRequest.ofDocument?).map fun r =>
      ⟨some (String.ofList (name.takeWhile (· ≠ ':'))), r.prompt⟩

/-! ## How requests are answered -/

/-- A request is declined: its answer is one JSON object that tells of a failure by its kind and a text, and
nothing else happens. -/
structure Declines (s : State) (status : Nat) (kind text : String) (a : State × Response) : Prop where
  state : a.1 = s
  status : a.2.status = status
  contentType : a.2.headers.get? "content-type" = some "application/json"
  body : ∀ d, Json.Spells d a.2.body.toList ↔
    d = (Json.Value.object [("error", .object [("message", .string text), ("type", .string kind)])]).document
  pauses : a.2.pauses = []

section Streams

variable (c : Configuration) (s : State) (o : Occasion) (p : Provider) (model? : Option String)
  (commands : List Command)

/-- A request is answered by the stream of commands: the reader gets all frames of the run, which is what
the encoder comes to over a channel of the configured room. The run stores the calls of the commands under
the identifiers that are given out on the occasion. The last call of the run that is stored under an
identifier is found there from then on, and where none is what was found before. -/
structure Streams (a : State × Response) : Prop where
  status : a.2.status = 200
  contentType : a.2.headers.get? "content-type" =
    some (if p = .gemini then "application/json" else "text/event-stream")
  body : a.2.body = String.join (replyRun c o p model? commands).collector.frames.toList
  pauses : a.2.pauses = (replyRun c o p model? commands).pauses
  completed : (replyRun c o p model? commands).outcome = .completed
  relayed : (Relay.start c.streaming.capacity.toNat (replyActions c o p model? commands)).Settles
    (replyRun c o p model? commands)
  calls : (replyRun c o p model? commands).stored = (commands.filterMap Stream.call?).zipIdx.map fun call =>
    .ofCall (p.callId (o.callTag call.2)) call.1.1 call.1.2 p (o.callTime call.2)
  found : ∀ id, a.1.store.get? id =
    ((replyRun c o p model? commands).stored.reverse.find? fun r => r.callId == id).or (s.store.get? id)

end Streams

/-! ## Declining -/

section Answers

variable {c : Configuration} {s : State} {o : Occasion} {q : Request} {r : Route} {e : Endpoint}

theorem get?_contentType (value : String) (rest : Headers) :
    Headers.get? (("content-type", value) :: rest) "content-type" = some value := by
  have hname : ("content-type".toLower == "content-type") = true := by decide +kernel
  have hfind : ((("content-type", value) :: rest).find? fun h => h.1.toLower == "content-type") =
      some ("content-type", value) := List.find?_cons_of_pos hname
  rw [Headers.get?, hfind]
  rfl

/-- A failure is told by its status, its kind and its text. -/
theorem declines_ofFailure (hhead : q.method ≠ "HEAD") (c : Configuration) (s : State) (o : Occasion) (f : Failure) :
    Declines s f.status f.kind f.message (s, finished c o q (.ofFailure f)) := by
  rw [finished_of_ne_head hhead]
  exact
    { state := rfl
      status := rfl
      contentType := get?_contentType jsonType _
      body := Json.Value.spells_compact_iff f.toJson
      pauses := rfl }

theorem ChatRequest.lacks_of_prompt {request : ChatRequest} {f : Failure} (h : request.prompt = .error f) :
    ∃ text, f = .badRequest text ∧ request.Lacks text := by
  unfold ChatRequest.prompt at h
  split at h
  case h_1 hnil =>
    cases h
    exact ⟨_, rfl, .messages hnil⟩
  case h_2 hsome =>
    split at h
    · cases h
    case h_2 hnone =>
      cases h
      refine ⟨_, rfl, .user hsome fun m hm hrole => ?_⟩
      exact List.find?_eq_none.1 hnone m (List.mem_reverse.2 hm) (beq_iff_eq.2 hrole)

theorem GenerationRequest.lacks_of_prompt {request : GenerationRequest} {f : Failure}
    (h : request.prompt = .error f) : ∃ text, f = .badRequest text ∧ request.Lacks text := by
  unfold GenerationRequest.prompt at h
  split at h
  case h_1 hnil =>
    cases h
    exact ⟨_, rfl, .contents hnil⟩
  case h_2 hsome =>
    split at h
    · cases h
    case h_2 hnone =>
      cases h
      refine ⟨_, rfl, .user hsome fun t ht => ?_⟩
      have hother := List.find?_eq_none.1 hnone t (List.mem_reverse.2 ht)
      cases hrole : t.role? with
      | none => exact absurd (by rw [hrole]; rfl) hother
      | some role => exact ⟨role, rfl, fun huser => hother (by rw [hrole, huser]; rfl)⟩

theorem lacks_of_inquiry? {source : Json.Source} {i : Inquiry} (hi : e.inquiry? source = some i) {f : Failure}
    (h : i.script = .error f) : ∃ text, f = .badRequest text ∧ e.Lacks source text := by
  cases e with
  | chat p pathModel? =>
    obtain ⟨request, hread, rfl⟩ := Option.map_eq_some_iff.1 hi
    obtain ⟨text, hf, hlacks⟩ := ChatRequest.lacks_of_prompt h
    exact ⟨text, hf, request, hread, hlacks⟩
  | action name =>
    obtain ⟨request, hread, rfl⟩ := Option.map_eq_some_iff.1 hi
    obtain ⟨text, hf, hlacks⟩ := GenerationRequest.lacks_of_prompt h
    exact ⟨text, hf, request, hread, hlacks⟩

/-! ## Streaming -/

/-- The calls of a reply are those of its commands, under the identifiers that the occasion gives. -/
theorem stored_replyRun (c : Configuration) (o : Occasion) (p : Provider) (model? : Option String)
    (commands : List Command) :
    (replyRun c o p model? commands).stored = (commands.filterMap Stream.call?).zipIdx.map fun call =>
      .ofCall (p.callId (o.callTag call.2)) call.1.1 call.1.2 p (o.callTime call.2) :=
  (Collector.perform_unlimited (replyActions c o p model? commands)).stored.trans (p.stored_schedule _ _ commands)

theorem contentType_eq (p : Provider) :
    p.contentType = if p = .gemini then "application/json" else "text/event-stream" := by
  cases p <;> rfl

theorem streams_after (hhead : q.method ≠ "HEAD") (c : Configuration) (s : State) (o : Occasion) (p : Provider)
    (model? : Option String) (commands : List Command) :
    Streams c s o p model? commands (s.after (replyRun c o p model? commands),
      finished c o q (.ofRun p (replyRun c o p model? commands))) := by
  have hrun := Collector.perform_unlimited (replyActions c o p model? commands)
  rw [finished_of_ne_head hhead]
  exact
    { status := rfl
      contentType := by
        rw [← contentType_eq]
        exact get?_contentType p.contentType _
      body := rfl
      pauses := rfl
      completed := hrun.outcome
      relayed := Relay.settles_start _ _
      calls := stored_replyRun c o p model? commands
      found := fun id => s.store.get?_putAll _ id }

/-! ## Looking at requests -/

/-- What an endpoint that does not stray makes of a body. -/
def Endpoint.respond (c : Configuration) (s : State) (o : Occasion) (e : Endpoint) (source : Json.Source) :
    Except Failure (State × Option Response) :=
  match e.inquiry? source with
  | none => .error (.malformedJson o.refusal)
  | some i => i.script.bind (streamed c s o e.provider i.model?)

theorem isPosted_of_endpoint? (h : r.endpoint? = some e) : r.isPosted = true := by
  cases r <;> first | rfl | cases h

theorem source_of_arrivesAt (h : q.ArrivesAt e) : q.source = .ok (Utf8.decode q.body) := by
  rw [Request.source, if_neg (Nat.not_lt.2 h.size)]

theorem chat_eq_respond (hsource : q.source = .ok (Utf8.decode q.body)) (p : Provider) (pathModel? : Option String) :
    chat c s o p pathModel? q = orReject ((Endpoint.chat p pathModel?).respond c s o (Utf8.decode q.body)) := by
  rw [chat_of_source hsource]
  unfold ChatRequest.ofBody Endpoint.respond Endpoint.inquiry?
  cases (Document.ofSource? (Utf8.decode q.body)).bind ChatRequest.ofDocument? <;> rfl

theorem takeWhile_model {model : List Char} (hm : ':' ∉ model) (action : List Char) :
    (model ++ ':' :: action).takeWhile (· ≠ ':') = model := by
  have hbefore : ∀ d ∈ model, decide (d ≠ ':') = true := by
    intro d hd
    rw [decide_eq_true_iff]
    rintro rfl
    exact hm hd
  rw [List.takeWhile_append_of_pos hbefore, List.takeWhile_cons_of_neg (by decide), List.append_nil]

theorem generate_eq_respond (hsource : q.source = .ok (Utf8.decode q.body)) {model action : List Char}
    (hm : ':' ∉ model) (ha : String.ofList action ∈ modelActions) :
    generate c s o (model ++ ':' :: action) q =
      orReject ((Endpoint.action (model ++ ':' :: action)).respond c s o (Utf8.decode q.body)) := by
  rw [generate_of_source hsource, modelOfAction_append hm ha]
  unfold GenerationRequest.ofBody Endpoint.respond Endpoint.inquiry?
  simp only [takeWhile_model hm]
  cases (Document.ofSource? (Utf8.decode q.body)).bind GenerationRequest.ofDocument? <;> rfl

theorem modelOfAction_of_strays {name : List Char} {text : String} (h : (Endpoint.action name).Strays text) :
    modelOfAction name = .error (.notFound text) := by
  unfold modelOfAction
  cases h with
  | unnamed h => rw [Split.atFirst?_of_notMem h]
  | unknown hm ha =>
    rw [Split.atFirst?_append hm]
    exact if_neg fun h => ha (List.contains_iff_mem.1 h)

theorem generate_of_strays (hsource : q.source = .ok (Utf8.decode q.body)) {name : List Char} {text : String}
    (h : (Endpoint.action name).Strays text) :
    generate c s o name q = .error (.failure (.notFound text)) := by
  rw [generate_of_source hsource, modelOfAction_of_strays h]
  rfl

theorem exists_known {name : List Char} (h : ∀ text, ¬ (Endpoint.action name).Strays text) :
    ∃ model action, name = model ++ ':' :: action ∧ ':' ∉ model ∧ String.ofList action ∈ modelActions := by
  by_cases hname : ':' ∈ name
  · obtain ⟨model, action, rfl, hm⟩ := List.eq_append_cons_of_mem hname
    refine ⟨model, action, rfl, hm, ?_⟩
    by_contra ha
    exact h _ (.unknown hm ha)
  · exact absurd (.unnamed hname) (h _)

/-- The parameter of a route that leads to an endpoint is read, and the rest left to the chat or the
action. -/
theorem answer_of_endpoint? (hr : r.endpoint? = some e) :
    answer c s o r q = match e with
      | .chat p pathModel? => chat c s o p pathModel? q
      | .action name => generate c s o name q := by
  cases r with
  | health | modelList | toolResponse => cases hr
  | chatCompletions | messages =>
    cases hr
    rfl
  | deploymentCompletions | modelCompletions | generateContent =>
    obtain ⟨name, hname, rfl⟩ := Option.map_eq_some_iff.1 hr
    rw [answer, parameter_of_decode? hname]
    rfl

theorem answer_of_strays (hr : r.endpoint? = some e) (hsource : q.source = .ok (Utf8.decode q.body))
    {text : String} (h : e.Strays text) : answer c s o r q = .error (.failure (.notFound text)) := by
  rw [answer_of_endpoint? hr]
  cases e with
  | chat p pathModel? => cases h
  | action name => exact generate_of_strays hsource h

theorem answer_eq_respond (hr : r.endpoint? = some e) (hsource : q.source = .ok (Utf8.decode q.body))
    (h : ∀ text, ¬ e.Strays text) : answer c s o r q = orReject (e.respond c s o (Utf8.decode q.body)) := by
  rw [answer_of_endpoint? hr]
  cases e with
  | chat p pathModel? => exact chat_eq_respond hsource p pathModel?
  | action name =>
    obtain ⟨model, action, rfl, hm, ha⟩ := exists_known h
    exact generate_eq_respond hsource hm ha

/-! ## Answers of the server -/

/-- A server without keys leaves what arrives at an endpoint to the answer of a route. -/
theorem exists_route (hkeys : c.keys = []) (hq : q.ArrivesAt e) : ∃ r, r.endpoint? = some e ∧
    ∀ s o, handle c s o q = ((answered c s o r q).1, (answered c s o r q).2.map (finished c o q)) := by
  obtain ⟨r, hpath, hr⟩ := Option.bind_eq_some_iff.1 hq.endpoint
  exact ⟨r, hr, handle_of_keyless hkeys (reaches_of_posted hq.method hpath (isPosted_of_endpoint? hr))⟩

theorem responds_of_failure (hkeys : c.keys = []) (hq : q.ArrivesAt e) {f : Failure}
    (h : ∀ r, r.endpoint? = some e → answer c s o r q = .error (.failure f)) :
    Responds (Declines s f.status f.kind f.message) (handle c s o q) := by
  obtain ⟨r, hr, hhandle⟩ := exists_route hkeys hq
  have hanswered : answered c s o r q = (s, some (.ofFailure f)) := by
    rw [answered, h r hr]
    rfl
  rw [hhandle, hanswered]
  exact ⟨_, rfl, declines_ofFailure (ne_head_of_posted hq.method) c s o f⟩

theorem responds_of_respond (hkeys : c.keys = []) (hq : q.ArrivesAt e) (hstraight : ∀ text, ¬ e.Strays text)
    {f : Failure} (h : e.respond c s o (Utf8.decode q.body) = .error f) :
    Responds (Declines s f.status f.kind f.message) (handle c s o q) := by
  refine responds_of_failure hkeys hq fun r hr => ?_
  rw [answer_eq_respond hr (source_of_arrivesAt hq) hstraight, h]
  rfl

theorem respond_of_inquiry? {source : Json.Source} {i : Inquiry} (hi : e.inquiry? source = some i)
    {script : String} (hscript : i.script = .ok script) :
    e.respond c s o source = streamed c s o e.provider i.model? script := by
  rw [Endpoint.respond, hi]
  simp only [hscript]
  rfl

/-- Commands that are asked for are replied to. -/
theorem handle_of_respond (hkeys : c.keys = []) (hq : q.ArrivesAt e) (hstraight : ∀ text, ¬ e.Strays text)
    {p : Provider} {model? : Option String} {script : String} {commands : List Command}
    (hparse : parseScript script = .ok commands)
    (h : e.respond c s o (Utf8.decode q.body) = streamed c s o p model? script) :
    handle c s o q = ((reply c s o p model? commands).1,
      (reply c s o p model? commands).2.map (finished c o q)) := by
  obtain ⟨r, hr, hhandle⟩ := exists_route hkeys hq
  have hanswered : answered c s o r q = reply c s o p model? commands := by
    rw [answered, answer_eq_respond hr (source_of_arrivesAt hq) hstraight, h, streamed_of_parse hparse]
    rfl
  rw [hhandle, hanswered]

/-- A server without keys that is posted a request declines it if the endpoint strays; else if its body
spells no request, if that says no script, or if the script is not well formed; and streams the commands
of the script otherwise, if there is a channel with the configured room. Where there is none it gives no
answer, and nothing happens. -/
theorem handle_arrived (hkeys : c.keys = []) (hq : q.ArrivesAt e) (s : State) (o : Occasion) :
    (∀ text, e.Strays text → Responds (Declines s 404 "not_found_error" text) (handle c s o q)) ∧
    ((∀ text, ¬ e.Strays text) →
      (e.inquiry? (Utf8.decode q.body) = none →
        Responds (Declines s 400 "invalid_request_error" ("Serialization error: " ++ o.refusal)) (handle c s o q)) ∧
      ∀ i, e.inquiry? (Utf8.decode q.body) = some i →
        (∀ f, i.script = .error f → ∃ text, e.Lacks (Utf8.decode q.body) text ∧
          Responds (Declines s 400 "invalid_request_error" text) (handle c s o q)) ∧
        ∀ script, i.script = .ok script →
          (∀ f, parseScript script = .error f →
            Responds (Declines s 400 "parse_error" ("Parse error at line " ++ Numeral.decimal f.position.line ++
              ", column " ++ Numeral.decimal f.position.column ++ ": " ++ f.message)) (handle c s o q)) ∧
          ∀ commands, parseScript script = .ok commands →
            (c.streaming.capacity.toNat ≤ Stream.Channel.largest →
              Responds (Streams c s o e.provider i.model? commands) (handle c s o q)) ∧
            (Stream.Channel.largest < c.streaming.capacity.toNat → handle c s o q = (s, none))) := by
  refine ⟨fun text h => ?_, fun hstraight => ⟨fun hnone => ?_, fun i hi => ⟨fun f hf => ?_, fun script hscript => ?_⟩⟩⟩
  · exact responds_of_failure (f := .notFound text) hkeys hq fun r hr => answer_of_strays hr (source_of_arrivesAt hq) h
  · apply responds_of_respond (f := .malformedJson o.refusal) hkeys hq hstraight
    rw [Endpoint.respond, hnone]
  · obtain ⟨text, rfl, hlacks⟩ := lacks_of_inquiry? hi hf
    refine ⟨text, hlacks, responds_of_respond (f := .badRequest text) hkeys hq hstraight ?_⟩
    rw [Endpoint.respond, hi]
    simp only [hf]
    rfl
  · have hrespond := respond_of_inquiry? (c := c) (s := s) (o := o) hi hscript
    refine ⟨fun f hf => ?_, fun commands hparse => ?_⟩
    · apply responds_of_respond (f := .script f) hkeys hq hstraight
      rw [hrespond, streamed, hf]
    · have hhandle := handle_of_respond hkeys hq hstraight hparse hrespond
      refine ⟨fun hroom => ?_, fun hroom => ?_⟩
      · rw [hhandle, reply_of_le hroom]
        exact ⟨_, rfl, streams_after (ne_head_of_posted hq.method) c s o e.provider i.model? commands⟩
      · rw [hhandle, reply_of_lt hroom]
        rfl

end Answers

/-- Five requests to a server whose channel is given no room: an action that no model has, a body that is no
request, one without messages, a script that lacks a text, and a script that says something and makes a call. -/
theorem handle_arrived_five :
    let c : Configuration := { Configuration.default with streaming := ⟨0, "echo-model", 0⟩ }
    let o : Occasion := ⟨⟨0, ""⟩, fun _ => 0, "", "", fun _ => "a", fun _ => "now", "EOF"⟩
    let post : String → List UInt8 → Request := fun path body => ⟨"POST", ⟨path, none⟩, [], body⟩
    let asking : Provider → String → List UInt8 := fun p script => Utf8.encode (askingValue p script).write
    let told : Request → Option (Nat × Option String × String) := fun q =>
      (handle c .initial o q).2.map fun r => (r.status, r.headers.get? "content-type", r.body)
    let counting := post "/v1/models/m:countTokens" []
    let empty := post "/v1/messages" []
    let silent := post "/v1/messages" (Utf8.encode (Json.Value.object [("messages", .array [])]).write)
    let cut := post "/v1/messages" (asking .anthropic "SAY")
    let script := "SAY \"hi\"\nTOOLCALL \"f\" \"x\""
    let whole := post "/v1/models/m:generateContent" (asking .gemini script)
    let commands : List Command := [⟨.say "hi", .unset⟩, ⟨.toolCall "f" "x", .unset⟩]
    c.keys = [] ∧
      (counting.ArrivesAt (.action "m:countTokens".toList) ∧
        Responds (Declines .initial 404 "not_found_error" "Unsupported Gemini method 'countTokens'")
          (handle c .initial o counting) ∧
        told counting = some (404, some "application/json",
          "\x7b\"error\":\x7b\"message\":\"Unsupported Gemini method 'countTokens'\",\"type\":\"not_found_error\"\x7d\x7d")) ∧
      (empty.ArrivesAt (.chat .anthropic none) ∧
        Responds (Declines .initial 400 "invalid_request_error" "Serialization error: EOF")
          (handle c .initial o empty) ∧
        told empty = some (400, some "application/json",
          "\x7b\"error\":\x7b\"message\":\"Serialization error: EOF\",\"type\":\"invalid_request_error\"\x7d\x7d")) ∧
      (silent.ArrivesAt (.chat .anthropic none) ∧
        (∃ text, (Endpoint.chat .anthropic none).Lacks (Utf8.decode silent.body) text ∧
          Responds (Declines .initial 400 "invalid_request_error" text) (handle c .initial o silent)) ∧
        told silent = some (400, some "application/json",
          "\x7b\"error\":\x7b\"message\":\"Messages array is required\",\"type\":\"invalid_request_error\"\x7d\x7d")) ∧
      (cut.ArrivesAt (.chat .anthropic none) ∧
        Responds (Declines .initial 400 "parse_error" "Parse error at line 1, column 4: Expected string after SAY")
          (handle c .initial o cut) ∧
        told cut = some (400, some "application/json", "\x7b\"error\":\x7b\"message\":" ++
          "\"Parse error at line 1, column 4: Expected string after SAY\",\"type\":\"parse_error\"\x7d\x7d")) ∧
      whole.ArrivesAt (.action "m:generateContent".toList) ∧ parseScript script = .ok commands ∧
        Responds (Streams c .initial o .gemini (some "m") commands) (handle c .initial o whole) ∧
        told whole = some (200, some "application/json",
          "\x7b\"candidates\":[\x7b\"content\":\x7b\"parts\":[\x7b\"text\":\"hi\"\x7d],\"role\":\"model\"\x7d,\"index\":0\x7d]\x7d\n" ++
          "\x7b\"candidates\":[\x7b\"content\":\x7b\"parts\":[\x7b\"functionCall\":" ++
          "\x7b\"args\":\x7b\"value\":\"x\"\x7d,\"name\":\"f\"\x7d\x7d],\"role\":\"model\"\x7d," ++
          "\"finishReason\":\"STOP\",\"index\":0\x7d]\x7d") ∧
        (handle c .initial o whole).1.store.get? "call_a" = some (.ofCall "call_a" "f" "x" .gemini "now") := by
  intro c o post asking told counting empty silent cut script whole commands
  have hkeys : c.keys = [] := rfl
  have hcounting : counting.ArrivesAt (.action "m:countTokens".toList) :=
    ⟨rfl, by decide +kernel, by decide⟩
  have hempty : empty.ArrivesAt (.chat .anthropic none) := ⟨rfl, by decide +kernel, by decide⟩
  have hsilent : silent.ArrivesAt (.chat .anthropic none) := ⟨rfl, by decide +kernel, by decide +kernel⟩
  have hcut : cut.ArrivesAt (.chat .anthropic none) := ⟨rfl, by decide +kernel, by decide +kernel⟩
  have hwhole : whole.ArrivesAt (.action "m:generateContent".toList) :=
    ⟨rfl, by decide +kernel, by decide +kernel⟩
  have hchat : ∀ text, ¬ (Endpoint.chat .anthropic none).Strays text := fun text h => nomatch h
  have hknown : ∀ text, ¬ (Endpoint.action "m:generateContent".toList).Strays text := by
    intro text h
    have hmodel : modelOfAction "m:generateContent".toList = .ok "m" := by decide
    rw [modelOfAction_of_strays h] at hmodel
    cases hmodel
  have hparse : parseScript script = .ok commands := by decide +kernel
  have hroom : c.streaming.capacity.toNat ≤ Stream.Channel.largest := by decide
  have hstray := (handle_arrived hkeys hcounting .initial o).1 _
    (@Endpoint.Strays.unknown ['m'] "countTokens".toList (by decide) (by decide))
  have hunread := ((handle_arrived hkeys hempty .initial o).2 hchat).1 (by decide +kernel)
  have hlacks := (((handle_arrived hkeys hsilent .initial o).2 hchat).2
    ⟨none, .error (.badRequest "Messages array is required")⟩ (by decide +kernel)).1 _ rfl
  have hbad : Responds (Declines .initial 400 "parse_error" ("Parse error at line " ++ Numeral.decimal 1 ++
      ", column " ++ Numeral.decimal 4 ++ ": " ++ "Expected string after SAY")) (handle c .initial o cut) :=
    ((((handle_arrived hkeys hcut .initial o).2 hchat).2 ⟨none, .ok "SAY"⟩ (by decide +kernel)).2
      "SAY" rfl).1 ⟨⟨1, 4⟩, "Expected string after SAY"⟩ (by decide +kernel)
  have htext : "Parse error at line " ++ Numeral.decimal 1 ++ ", column " ++ Numeral.decimal 4 ++ ": " ++
      "Expected string after SAY" = "Parse error at line 1, column 4: Expected string after SAY" := by decide +kernel
  rw [htext] at hbad
  have hgood : Responds (Streams c .initial o .gemini (some "m") commands) (handle c .initial o whole) :=
    (((((handle_arrived hkeys hwhole .initial o).2 hknown).2
      ⟨some "m", .ok script⟩ (by decide +kernel)).2 script rfl).2 commands hparse).1 hroom
  refine ⟨hkeys, ⟨hcounting, hstray, by decide +kernel⟩, ⟨hempty, hunread, by decide +kernel⟩,
    ⟨hsilent, hlacks, by decide +kernel⟩, ⟨hcut, hbad, by decide +kernel⟩, hwhole, hparse, hgood, by decide +kernel, ?_⟩
  obtain ⟨r, -, hstreams⟩ := hgood
  refine (hstreams.found "call_a").trans ?_
  rw [hstreams.calls]
  rfl

/-- A server that is configured to have more room than any channel has never answers a request for a script. -/
theorem not_streams_of_capacity :
    let c : Configuration := { Configuration.default with streaming := ⟨0, "echo-model", 2305843009213693952⟩ }
    let o : Occasion := ⟨⟨0, ""⟩, fun _ => 0, "", "", fun _ => "", fun _ => "", ""⟩
    let q : Request := ⟨"POST", ⟨"/v1/chat/completions", none⟩, [], Utf8.encode (askingValue .openAi "SAY \"x\"").write⟩
    let commands : List Command := [⟨.say "x", .unset⟩]
    c.check = .ok () ∧ c.keys = [] ∧ q.ArrivesAt (.chat .openAi none) ∧
      (Endpoint.chat .openAi none).inquiry? (Utf8.decode q.body) = some ⟨none, .ok "SAY \"x\""⟩ ∧
      parseScript "SAY \"x\"" = .ok commands ∧ (handle c .initial o q).2 = none ∧
      ¬ Responds (Streams c .initial o .openAi none commands) (handle c .initial o q) := by
  intro c o q commands
  have hnone : (handle c .initial o q).2 = none := by decide +kernel
  refine ⟨rfl, rfl, ⟨rfl, by decide +kernel, by decide +kernel⟩, by decide +kernel, by decide +kernel, hnone, ?_⟩
  rintro ⟨r, hr, -⟩
  cases hnone.symm.trans hr

end ScriptedModel.Http
