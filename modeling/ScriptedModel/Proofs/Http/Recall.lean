/-
Calls that a server recalls. A reply keeps each of its calls under the identifier that it gives it; nothing
else that a server is asked changes what it keeps.

Main statement: whatever a server without keys was asked, as long as no two calls were given the same
identifier, it finds under their identifiers just the calls that its replies have streamed, each as it was
streamed, and no later request changes what it finds.
-/
import ScriptedModel.Proofs.Client.Mention
import ScriptedModel.Proofs.Http.Posting

namespace ScriptedModel.Http

open Json (Value)
open Script (Command parseScript)
open ScriptedModel.Client (mentions)
open ScriptedModel.Stream (Channel Collector Provider StoredResponse ToolStore structuredArguments)

/-! ## What is asked -/

/-- A request orders a stream of commands: it is posted to an endpoint that does not stray, and the script
that its body says is one of the commands. -/
inductive Request.Orders (q : Request) : Provider → Option String → List Command → Prop
  | intro {e : Endpoint} {i : Inquiry} {script : String} {commands : List Command} (harrives : q.ArrivesAt e)
    (hstraight : ∀ text, ¬ e.Strays text) (hinquiry : e.inquiry? (Utf8.decode q.body) = some i)
    (hscript : i.script = .ok script) (hparse : parseScript script = .ok commands) :
    Orders q e.provider i.model? commands

/-- A request that looks up an identifier, which its path spells with escapes or without. -/
structure Request.LooksUp (q : Request) (callId : String) : Prop where
  method : q.method = "GET"
  path : ∃ segment : List Char, q.target.path = "/v1/tool-responses/" ++ String.ofList segment ∧
    '/' ∉ segment ∧ Percent.decode? segment = some callId.toList

/-- A call is told: the answer is the JSON object of its identifier, its tool, its arguments as they were
written and as an object, the provider and the moment, and nothing else happens. -/
structure Tells (s : State) (r : StoredResponse) (a : State × Response) : Prop where
  state : a.1 = s
  status : a.2.status = 200
  contentType : a.2.headers.get? "content-type" = some "application/json"
  body : ∀ d, Json.Spells d a.2.body.toList ↔
    d = (Value.object [("callId", .string r.callId), ("toolName", .string r.toolName),
      ("arguments", .string r.arguments), ("parsedArguments", structuredArguments r.arguments),
      ("provider", .string r.provider.name), ("createdAt", .string r.createdAt)]).document
  pauses : a.2.pauses = []

/-- The state of a server that was asked requests, one after another. -/
def stateAfter (c : Configuration) (asked : List (Occasion × Request)) : State := (handleAll c .initial asked).1

/-- The n-th call that a server has made for the i-th request that it was asked: the request orders it, and gets
it streamed under the identifier that is given to it on the occasion. -/
inductive MadeAt (c : Configuration) (asked : List (Occasion × Request)) (i n : Nat) : StoredResponse → Prop
  | intro {o : Occasion} {q : Request} {p : Provider} {model? : Option String} {commands : List Command}
    {toolName arguments : String} (hasked : asked[i]? = some (o, q)) (horders : q.Orders p model? commands)
    (hroom : c.streaming.capacity.toNat ≤ Channel.largest)
    (hcall : (commands.filterMap Stream.call?)[n]? = some (toolName, arguments)) :
    MadeAt c asked i n (.ofCall (p.callId (o.callTag n)) toolName arguments p (o.callTime n))

/-- A call that a server has made. -/
def Made (c : Configuration) (asked : List (Occasion × Request)) (r : StoredResponse) : Prop :=
  ∃ i n, MadeAt c asked i n r

/-- No two calls that a server has made are given the same identifier. -/
def IdsDiffer (c : Configuration) (asked : List (Occasion × Request)) : Prop :=
  ∀ i n r i' n' r', MadeAt c asked i n r → MadeAt c asked i' n' r' → r.callId = r'.callId → i = i' ∧ n = n'

/-! ## Orders -/

section Answers

variable {c : Configuration} {s : State} {o : Occasion} {q : Request} {r : Route} {p : Provider}
  {model? : Option String} {commands : List Command}

theorem Request.Orders.unique (h : q.Orders p model? commands) {p' : Provider} {model?' : Option String}
    {commands' : List Command} (h' : q.Orders p' model?' commands') :
    p = p' ∧ model? = model?' ∧ commands = commands' := by
  obtain ⟨harrives, -, hinquiry, hscript, hparse⟩ := h
  obtain ⟨harrives', -, hinquiry', hscript', hparse'⟩ := h'
  cases Option.some.inj (harrives.endpoint.symm.trans harrives'.endpoint)
  cases Option.some.inj (hinquiry.symm.trans hinquiry')
  cases Except.ok.inj (hscript.symm.trans hscript')
  cases Except.ok.inj (hparse.symm.trans hparse')
  exact ⟨rfl, rfl, rfl⟩

theorem Request.Orders.method (h : q.Orders p model? commands) : q.method = "POST" := by
  obtain ⟨harrives, -, -, -, -⟩ := h
  exact harrives.method

/-- An order is replied to. -/
theorem handle_of_orders (hkeys : c.keys = []) (h : q.Orders p model? commands) (s : State) (o : Occasion) :
    handle c s o q = ((reply c s o p model? commands).1,
      (reply c s o p model? commands).2.map (finished c o q)) := by
  obtain ⟨harrives, hstraight, hinquiry, hscript, hparse⟩ := h
  exact handle_of_respond hkeys harrives hstraight hparse (respond_of_inquiry? hinquiry hscript)

/-- An order is carried out where there is room, and its answer is what the run puts out. -/
theorem handle_of_room (hkeys : c.keys = []) (h : q.Orders p model? commands)
    (hroom : c.streaming.capacity.toNat ≤ Channel.largest) (s : State) (o : Occasion) :
    handle c s o q = (s.after (replyRun c o p model? commands),
      some (finished c o q (.ofRun p (replyRun c o p model? commands)))) := by
  rw [handle_of_orders hkeys h, reply_of_le hroom]
  rfl

theorem handle_of_no_room (hkeys : c.keys = []) (h : q.Orders p model? commands)
    (hroom : Channel.largest < c.streaming.capacity.toNat) (s : State) (o : Occasion) :
    handle c s o q = (s, none) := by
  rw [handle_of_orders hkeys h, reply_of_lt hroom]
  rfl

theorem streams_of_orders (hkeys : c.keys = []) (h : q.Orders p model? commands)
    (hroom : c.streaming.capacity.toNat ≤ Channel.largest) (s : State) (o : Occasion) :
    Responds (Streams c s o p model? commands) (handle c s o q) := by
  rw [handle_of_room hkeys h hroom]
  exact ⟨_, rfl, streams_after (ne_head_of_posted h.method) c s o p model? commands⟩

theorem parameter_of_decode?_none {segment : List Char} (h : Percent.decode? segment = none) (name : String) :
    parameter name segment = .error (.unreadable name) := by
  rw [parameter, h]
  rfl

theorem answer_of_unreadable (hposted : r.isPosted = true) (hr : r.endpoint? = none) :
    ∃ name, answer c s o r q = .error (.unreadable name) := by
  cases r with
  | health | modelList | toolResponse => cases hposted
  | chatCompletions | messages => cases hr
  | deploymentCompletions segment =>
    refine ⟨"deployment", ?_⟩
    rw [answer, parameter_of_decode?_none (Option.map_eq_none_iff.1 hr)]
    rfl
  | modelCompletions segment =>
    refine ⟨"model", ?_⟩
    rw [answer, parameter_of_decode?_none (Option.map_eq_none_iff.1 hr)]
    rfl
  | generateContent segment =>
    refine ⟨"model_action", ?_⟩
    rw [answer, parameter_of_decode?_none (Option.map_eq_none_iff.1 hr)]
    rfl

theorem answer_of_tooLarge {e : Endpoint} (hr : r.endpoint? = some e) (hsize : bodyLimit < q.body.length) :
    answer c s o r q = .error .tooLarge := by
  have hsource : q.source = .error .tooLarge := if_pos hsize
  rw [answer_of_endpoint? hr]
  cases e with
  | chat p pathModel? =>
    show chat c s o p pathModel? q = _
    rw [chat, hsource]
    rfl
  | action name =>
    show generate c s o name q = _
    rw [generate, hsource]
    rfl

theorem exists_of_respond {e : Endpoint} {source : Json.Source} {a : State × Option Response}
    (h : e.respond c s o source = .ok a) :
    ∃ i script commands, e.inquiry? source = some i ∧ i.script = .ok script ∧ parseScript script = .ok commands := by
  unfold Endpoint.respond at h
  split at h
  · cases h
  case h_2 i hinquiry =>
    cases hscript : i.script with
    | error f =>
      rw [hscript] at h
      cases h
    | ok script =>
      rw [hscript] at h
      have hstreamed : streamed c s o e.provider i.model? script = .ok a := h
      unfold streamed at hstreamed
      split at hstreamed
      · cases hstreamed
      case h_2 commands hparse => exact ⟨i, script, commands, hinquiry, hscript, hparse⟩

/-- What an endpoint answers well is an order. -/
theorem orders_of_answer (hr : q.Reaches r) (hposted : r.isPosted = true) {a : State × Option Response}
    (h : answer c s o r q = .ok a) : ∃ p model? commands, q.Orders p model? commands := by
  cases he : r.endpoint? with
  | none =>
    obtain ⟨name, hname⟩ := answer_of_unreadable (c := c) (s := s) (o := o) (q := q) hposted he
    cases hname.symm.trans h
  | some e =>
    have hsize : q.body.length ≤ bodyLimit := by
      by_contra hlarge
      cases (answer_of_tooLarge he (Nat.lt_of_not_le hlarge)).symm.trans h
    have harrives : q.ArrivesAt e :=
      { method := by rw [hr.method, if_pos hposted]
        endpoint := by rw [hr.path]; exact he
        size := hsize }
    have hsource := source_of_arrivesAt harrives
    have hstraight : ∀ text, ¬ e.Strays text := fun text hs => nomatch (answer_of_strays he hsource hs).symm.trans h
    rw [answer_eq_respond he hsource hstraight] at h
    cases hrespond : e.respond c s o (Utf8.decode q.body) with
    | error f =>
      rw [hrespond] at h
      cases h
    | ok a' =>
      obtain ⟨i, script, commands, hinquiry, hscript, hparse⟩ := exists_of_respond hrespond
      exact ⟨_, _, _, .intro harrives hstraight hinquiry hscript hparse⟩

/-! ## What is no order -/

theorem status_response_ne (e : Rejection) : e.response.status ≠ 200 := by
  cases e with
  | failure f => cases f <;> exact Nat.ne_of_beq_eq_false rfl
  | unreadable name => exact Nat.ne_of_beq_eq_false rfl
  | tooLarge => exact Nat.ne_of_beq_eq_false rfl

theorem state_answer_of_got (hr : r.isPosted = false) {a : State × Option Response}
    (h : answer c s o r q = .ok a) : a.1 = s := by
  cases r with
  | health | modelList =>
    cases h
    rfl
  | toolResponse segment =>
    rw [answer] at h
    cases hsegment : parameter "call_id" segment with
    | error e =>
      rw [hsegment] at h
      cases h
    | ok callId =>
      rw [hsegment] at h
      cases hfound : toolResponse s (String.ofList callId) with
      | error f =>
        simp only [bind, Except.bind, hfound] at h
        cases h
      | ok response =>
        simp only [bind, Except.bind, hfound] at h
        cases h
        rfl
  | chatCompletions | deploymentCompletions | modelCompletions | messages | generateContent => cases hr

theorem state_answered_of_got (hr : r.isPosted = false) : (answered c s o r q).1 = s := by
  unfold answered
  split
  case h_1 a h => exact state_answer_of_got hr h
  case h_2 => rfl

/-- What reaches an endpoint and is no order is turned down. -/
theorem answered_of_not_orders (hr : q.Reaches r) (hposted : r.isPosted = true)
    (h : ∀ p model? commands, ¬ q.Orders p model? commands) :
    (answered c s o r q).1 = s ∧ ∀ x, (answered c s o r q).2 = some x → x.status ≠ 200 := by
  unfold answered
  split
  case h_1 a ha =>
    obtain ⟨p, model?, commands, horders⟩ := orders_of_answer hr hposted ha
    exact absurd horders (h p model? commands)
  case h_2 e _ =>
    refine ⟨rfl, ?_⟩
    rintro x ⟨⟩
    exact status_response_ne e

theorem method_of_allows (h : r.allows q.method = true) :
    (r.isPosted = true ∧ q.method = "POST") ∨ (r.isPosted = false ∧ q.method ≠ "POST") := by
  unfold Route.allows at h
  split at h
  case isTrue hposted => exact .inl ⟨hposted, of_decide_eq_true h⟩
  case isFalse hgot =>
    refine .inr ⟨Bool.not_eq_true _ ▸ hgot, ?_⟩
    intro hpost
    rw [hpost] at h
    exact absurd h (by decide)

theorem routed_of_not_orders (hkeys : c.keys = []) (hpath : Route.ofPath? q.target.path = some r)
    (h : ∀ p model? commands, ¬ q.Orders p model? commands) :
    (routed c s o r q).1 = s ∧ (q.method = "POST" → ∀ x, (routed c s o r q).2 = some x → x.status ≠ 200) := by
  have hguard : (if asksKey c r then checkKey c q else .ok ()) = .ok () := by
    rw [asksKey_of_keyless hkeys r]
    rfl
  unfold routed
  rw [hguard]
  cases hallows : r.allows q.method with
  | false =>
    refine ⟨rfl, fun _ => ?_⟩
    rintro x ⟨⟩
    exact (by decide : (405 : Nat) ≠ 200)
  | true =>
    show (answered c s o r q).1 = s ∧ (q.method = "POST" → ∀ x, (answered c s o r q).2 = some x → x.status ≠ 200)
    rcases method_of_allows hallows with ⟨hposted, hpost⟩ | ⟨hgot, hother⟩
    · obtain ⟨hstate, hstatus⟩ := answered_of_not_orders (c := c) (s := s) (o := o)
        (reaches_of_posted hpost hpath hposted) hposted h
      exact ⟨hstate, fun _ => hstatus⟩
    · exact ⟨state_answered_of_got hgot, fun hpost => absurd hpost hother⟩

theorem dispatched_of_not_orders (hkeys : c.keys = []) (h : ∀ p model? commands, ¬ q.Orders p model? commands) :
    (dispatched c s o q).1 = s ∧
      (q.method = "POST" → ∀ x, (dispatched c s o q).2 = some x → x.status ≠ 200) := by
  by_cases hoptions : q.method = "OPTIONS"
  · rw [dispatched, if_pos hoptions]
    exact ⟨rfl, fun hpost => absurd (hoptions.symm.trans hpost) (by decide)⟩
  · rw [dispatched, if_neg hoptions]
    cases hpath : Route.ofPath? q.target.path with
    | none =>
      refine ⟨rfl, fun _ => ?_⟩
      rintro x ⟨⟩
      exact (by decide : (404 : Nat) ≠ 200)
    | some r => exact routed_of_not_orders hkeys hpath h

/-- A request that orders nothing changes nothing, and gets no good answer if it is posted. -/
theorem handle_of_not_orders (hkeys : c.keys = []) (h : ∀ p model? commands, ¬ q.Orders p model? commands)
    (s : State) (o : Occasion) :
    (handle c s o q).1 = s ∧ (q.method = "POST" → ∀ x, (handle c s o q).2 = some x → x.status ≠ 200) := by
  obtain ⟨hstate, hstatus⟩ := dispatched_of_not_orders (s := s) (o := o) hkeys h
  refine ⟨hstate, fun hpost x hx => ?_⟩
  obtain ⟨y, hy, rfl⟩ := Option.map_eq_some_iff.1 hx
  rw [status_finished]
  exact hstatus hpost y hy

/-! ## Looking up -/

/-- The path of a look-up leads to the route for it, unless it spells no identifier at all. -/
theorem ofPath?_of_lookup {path : String} {segment : List Char}
    (hpath : path = "/v1/tool-responses/" ++ String.ofList segment) (hsegment : '/' ∉ segment) :
    Route.ofPath? path = if segment = [] then none else some (.toolResponse segment) := by
  have hpieces : Split.pieces '/' ("v1".toList ++ '/' :: ("tool-responses".toList ++ '/' :: segment)) =
      ["v1".toList, "tool-responses".toList, segment] := by
    rw [Split.pieces_append (by decide), Split.pieces_append (by decide), Split.pieces_of_notMem hsegment]
  have hlist : path.toList = '/' :: ("v1".toList ++ '/' :: ("tool-responses".toList ++ '/' :: segment)) := by
    rw [hpath, String.toList_append, @String.toList_ofList segment]
    rfl
  rw [Route.ofPath?, hlist]
  simp only [hpieces, List.map_cons, List.map_nil, String.ofList_toList]
  rw [Route.ofSegments?, String.toList_ofList]
  simp

theorem answered_toolResponse {segment : List Char} {callId : String}
    (h : Percent.decode? segment = some callId.toList) :
    answered c s o (.toolResponse segment) q =
      (s, some ((s.store.get? callId).elim
        (.ofFailure (.notFound ("No tool response for call id '" ++ callId ++ "'"))) fun r => .json r.toJson)) := by
  rw [answered, answer, parameter_of_decode? h]
  simp only [bind, Except.bind, String.ofList_toList, toolResponse]
  cases s.store.get? callId <;> rfl

theorem reaches_of_looksUp {callId : String} (h : q.LooksUp callId) :
    (∃ segment, q.Reaches (.toolResponse segment) ∧ Percent.decode? segment = some callId.toList) ∨
      (callId = "" ∧ Route.ofPath? q.target.path = none) := by
  obtain ⟨segment, hpath, hslash, hdecode⟩ := h.path
  have hroute := ofPath?_of_lookup hpath hslash
  by_cases hsegment : segment = []
  · subst hsegment
    have hempty : callId.toList = [] := (Option.some.inj hdecode).symm
    exact .inr ⟨String.toList_eq_nil_iff.1 hempty, hroute⟩
  · exact .inl ⟨segment, ⟨hroute.trans (if_neg hsegment), h.method⟩, hdecode⟩

/-- What is kept under an identifier is the answer to a look-up. -/
theorem handle_of_get? (hkeys : c.keys = []) {callId : String} (h : q.LooksUp callId) (hid : callId ≠ "")
    {r : StoredResponse} (hr : s.store.get? callId = some r) :
    handle c s o q = (s, some (finished c o q (.json r.toJson))) := by
  rcases reaches_of_looksUp h with ⟨segment, hreaches, hdecode⟩ | ⟨hempty, -⟩
  · rw [handle_of_keyless hkeys hreaches, answered_toolResponse hdecode, hr]
    rfl
  · exact absurd hempty hid

theorem tells_of_get? (hkeys : c.keys = []) {callId : String} (h : q.LooksUp callId) (hid : callId ≠ "")
    {r : StoredResponse} (hr : s.store.get? callId = some r)
    (hparsed : r.parsedArguments = structuredArguments r.arguments) : Responds (Tells s r) (handle c s o q) := by
  have hhead : q.method ≠ "HEAD" := by
    rw [h.method]
    decide
  refine ⟨_, congrArg Prod.snd (handle_of_get? hkeys h hid hr), ?_⟩
  rw [handle_of_get? hkeys h hid hr, finished_of_ne_head hhead]
  exact
    { state := rfl
      status := rfl
      contentType := get?_contentType jsonType _
      body := by
        rw [← hparsed]
        exact Json.Value.spells_compact_iff r.toJson
      pauses := rfl }

/-- A look-up that finds nothing changes nothing either. -/
theorem missed_of_get? (hkeys : c.keys = []) {callId : String} (h : q.LooksUp callId)
    (hnone : s.store.get? callId = none) : Responds (fun a => a.1 = s ∧ a.2.status = 404) (handle c s o q) := by
  rcases reaches_of_looksUp h with ⟨segment, hreaches, hdecode⟩ | ⟨-, hpath⟩
  · rw [handle_of_keyless hkeys hreaches, answered_toolResponse hdecode, hnone]
    exact ⟨_, rfl, rfl, status_finished _⟩
  · have hdispatched : dispatched c s o q = (s, some (.empty 404)) := by
      rw [dispatched, h.method, hpath]
      rfl
    rw [handle, hdispatched]
    exact ⟨_, rfl, rfl, status_finished _⟩

end Answers

/-! ## What is kept -/

/-- A state that keeps calls and nothing else, each under its identifier. -/
structure Keeps (made : StoredResponse → Prop) (s : State) : Prop where
  found : ∀ r, made r → s.store.get? r.callId = some r
  only : ∀ callId r, s.store.get? callId = some r → made r ∧ r.callId = callId

theorem keeps_initial : Keeps (fun _ => False) .initial :=
  { found := fun _ h => h.elim
    only := fun _ _ h => nomatch h }

/-- Calls with identifiers of their own, which none that is kept has, are kept besides those. -/
theorem Keeps.putAll {made : StoredResponse → Prop} {s : State} (h : Keeps made s) {rs : List StoredResponse}
    (hids : (rs.map StoredResponse.callId).Nodup) (hfresh : ∀ r, made r → ∀ r' ∈ rs, r'.callId ≠ r.callId) :
    Keeps (fun r => made r ∨ r ∈ rs) ⟨s.store.putAll rs⟩ := by
  constructor
  · rintro r (hr | hr)
    · exact (s.store.get?_putAll_of_forall_ne (hfresh r hr)).trans (h.found r hr)
    · exact s.store.get?_putAll_of_mem hids hr
  · intro callId r hget
    by_cases hnew : ∃ r' ∈ rs, r'.callId = callId
    · obtain ⟨r', hr', rfl⟩ := hnew
      cases Option.some.inj ((s.store.get?_putAll_of_mem hids hr').symm.trans hget)
      exact ⟨.inr hr', rfl⟩
    · have huntouched := s.store.get?_putAll_of_forall_ne fun r' hr' heq => hnew ⟨r', hr', heq⟩
      obtain ⟨hr, hid⟩ := h.only callId r (huntouched.symm.trans hget)
      exact ⟨.inl hr, hid⟩

/-! ## Calls that are made -/

section Runs

variable {c : Configuration} {s : State} {o : Occasion} {q : Request} {p : Provider}
  {model? : Option String} {commands : List Command} {asked more : List (Occasion × Request)} {r : StoredResponse}
  {i n : Nat}

theorem mem_stored_replyRun : r ∈ (replyRun c o p model? commands).stored ↔
    ∃ n toolName arguments, (commands.filterMap Stream.call?)[n]? = some (toolName, arguments) ∧
      r = .ofCall (p.callId (o.callTag n)) toolName arguments p (o.callTime n) := by
  rw [stored_replyRun, List.mem_map]
  constructor
  · rintro ⟨⟨⟨toolName, arguments⟩, n⟩, hmem, rfl⟩
    exact ⟨n, toolName, arguments, List.mem_zipIdx_iff_getElem?.1 hmem, rfl⟩
  · rintro ⟨n, toolName, arguments, hcall, rfl⟩
    exact ⟨((toolName, arguments), n), List.mem_zipIdx_iff_getElem?.2 hcall, rfl⟩

theorem MadeAt.lt_length (h : MadeAt c asked i n r) : i < asked.length := by
  obtain ⟨hasked, -, -, -⟩ := h
  exact (List.getElem?_eq_some_iff.1 hasked).1

theorem MadeAt.append (h : MadeAt c asked i n r) (more : List (Occasion × Request)) :
    MadeAt c (asked ++ more) i n r := by
  have hi := h.lt_length
  obtain ⟨hasked, horders, hroom, hcall⟩ := h
  exact .intro ((List.getElem?_append_left hi).trans hasked) horders hroom hcall

theorem Made.append (h : Made c asked r) (more : List (Occasion × Request)) : Made c (asked ++ more) r := by
  obtain ⟨i, n, h⟩ := h
  exact ⟨i, n, h.append more⟩

theorem IdsDiffer.of_append (h : IdsDiffer c (asked ++ more)) : IdsDiffer c asked :=
  fun i n r i' n' r' hr hr' hid => h i n r i' n' r' (hr.append more) (hr'.append more) hid

/-- A call that is made is kept as one of its tool, with its arguments as an object, and its identifier is not
the empty text. -/
theorem Made.told (h : Made c asked r) : r.parsedArguments = structuredArguments r.arguments ∧ r.callId ≠ "" := by
  obtain ⟨i, n, ⟨-, -, -, -⟩⟩ := h
  rename_i o q p model? commands toolName arguments
  refine ⟨rfl, ?_⟩
  show p.callId (o.callTag n) ≠ ""
  cases p <;> simp [Provider.callId, Provider.callKind, Stream.Identifier.Kind.stem]

/-- The calls of an order are made, where there is room. -/
theorem madeAt_snoc (horders : q.Orders p model? commands) (hroom : c.streaming.capacity.toNat ≤ Channel.largest)
    {toolName arguments : String} (hcall : (commands.filterMap Stream.call?)[n]? = some (toolName, arguments)) :
    MadeAt c (asked ++ [(o, q)]) asked.length n
      (.ofCall (p.callId (o.callTag n)) toolName arguments p (o.callTime n)) :=
  .intro List.getElem?_concat_length horders hroom hcall

theorem made_of_mem_stored (horders : q.Orders p model? commands)
    (hroom : c.streaming.capacity.toNat ≤ Channel.largest) (hr : r ∈ (replyRun c o p model? commands).stored) :
    ∃ n, MadeAt c (asked ++ [(o, q)]) asked.length n r := by
  obtain ⟨n, toolName, arguments, hcall, rfl⟩ := mem_stored_replyRun.1 hr
  exact ⟨n, madeAt_snoc horders hroom hcall⟩

/-- One more request makes the calls that it orders, if it orders any and there is room. -/
theorem made_snoc : Made c (asked ++ [(o, q)]) r ↔ Made c asked r ∨
    ∃ p model? commands, q.Orders p model? commands ∧ c.streaming.capacity.toNat ≤ Channel.largest ∧
      r ∈ (replyRun c o p model? commands).stored := by
  constructor
  · rintro ⟨i, n, h⟩
    have hi := h.lt_length
    obtain ⟨hasked, horders, hroom, hcall⟩ := h
    rw [List.length_append, List.length_singleton] at hi
    rcases Nat.lt_succ_iff_lt_or_eq.1 hi with hearlier | rfl
    · rw [List.getElem?_append_left hearlier] at hasked
      exact .inl ⟨i, n, .intro hasked horders hroom hcall⟩
    · rw [List.getElem?_concat_length] at hasked
      cases hasked
      exact .inr ⟨_, _, _, horders, hroom, mem_stored_replyRun.2 ⟨n, _, _, hcall, rfl⟩⟩
  · rintro (h | ⟨p, model?, commands, horders, hroom, hr⟩)
    · exact h.append _
    · obtain ⟨n, h⟩ := made_of_mem_stored horders hroom hr
      exact ⟨_, n, h⟩

/-- The calls of a reply have identifiers of their own, which no call that was made before has. -/
theorem IdsDiffer.stored (h : IdsDiffer c (asked ++ [(o, q)])) (horders : q.Orders p model? commands)
    (hroom : c.streaming.capacity.toNat ≤ Channel.largest) :
    ((replyRun c o p model? commands).stored.map StoredResponse.callId).Nodup ∧
      ∀ r, Made c asked r → ∀ r' ∈ (replyRun c o p model? commands).stored, r'.callId ≠ r.callId := by
  constructor
  · have hcalls : ∀ n ∈ List.range (commands.filterMap Stream.call?).length, ∃ toolName arguments,
        MadeAt c (asked ++ [(o, q)]) asked.length n
          (.ofCall (p.callId (o.callTag n)) toolName arguments p (o.callTime n)) := by
      intro n hn
      have hcall := List.getElem?_eq_getElem (List.mem_range.1 hn)
      exact ⟨_, _, madeAt_snoc horders hroom hcall⟩
    rw [stored_replyRun, Stream.callId_ofCalls (fun n => p.callId (o.callTag n)) p o.callTime]
    refine List.Nodup.map_on (fun n hn n' hn' hid => ?_) List.nodup_range
    obtain ⟨_, _, hmade⟩ := hcalls n hn
    obtain ⟨_, _, hmade'⟩ := hcalls n' hn'
    exact (h _ _ _ _ _ _ hmade hmade' hid).2
  · rintro r ⟨i, n, hr⟩ r' hr' hid
    obtain ⟨n', hmade⟩ : ∃ n', MadeAt c (asked ++ [(o, q)]) asked.length n' r' :=
      made_of_mem_stored horders hroom hr'
    have hi := (h _ _ _ _ _ _ hmade (hr.append _) hid).1
    exact absurd hr.lt_length (by omega)

/-! ## Runs of requests -/

theorem handleAll_append (c : Configuration) (s : State) (xs ys : List (Occasion × Request)) :
    (handleAll c s (xs ++ ys)).1 = (handleAll c (handleAll c s xs).1 ys).1 := by
  induction xs generalizing s with
  | nil => rfl
  | cons x xs ih => exact ih (handle c s x.1 x.2).1

theorem stateAfter_snoc (c : Configuration) (asked : List (Occasion × Request)) (o : Occasion) (q : Request) :
    stateAfter c (asked ++ [(o, q)]) = (handle c (stateAfter c asked) o q).1 :=
  handleAll_append c .initial asked [(o, q)]

/-- What is no order, or one for which there is no room, changes nothing, and gets no good answer if it is
posted. -/
theorem handle_of_not_streamed (hkeys : c.keys = [])
    (h : ∀ p model? commands, q.Orders p model? commands → Channel.largest < c.streaming.capacity.toNat)
    (s : State) (o : Occasion) :
    (handle c s o q).1 = s ∧ (q.method = "POST" → ∀ x, (handle c s o q).2 = some x → x.status ≠ 200) := by
  by_cases horders : ∃ p model? commands, q.Orders p model? commands
  · obtain ⟨p, model?, commands, horders⟩ := horders
    rw [handle_of_no_room hkeys horders (h _ _ _ horders)]
    exact ⟨rfl, fun _ x hx => nomatch hx⟩
  · exact handle_of_not_orders hkeys (fun p model? commands h => horders ⟨p, model?, commands, h⟩) s o

/-- Whatever a server without keys was asked, it keeps the calls that it has made. -/
theorem keeps_stateAfter (hkeys : c.keys = []) {asked : List (Occasion × Request)} (hids : IdsDiffer c asked) :
    Keeps (Made c asked) (stateAfter c asked) := by
  induction asked using List.reverseRecOn with
  | nil =>
    have hnone : Made c [] = fun _ => False := by
      funext r
      refine eq_false ?_
      rintro ⟨i, n, h⟩
      exact Nat.not_lt_zero i h.lt_length
    rw [hnone]
    exact keeps_initial
  | append_singleton asked x ih =>
    obtain ⟨o, q⟩ := x
    have hbefore := ih hids.of_append
    rw [stateAfter_snoc]
    by_cases h : ∃ p model? commands, q.Orders p model? commands ∧ c.streaming.capacity.toNat ≤ Channel.largest
    · obtain ⟨p, model?, commands, horders, hroom⟩ := h
      have hmade : Made c (asked ++ [(o, q)]) = fun r => Made c asked r ∨
          r ∈ (replyRun c o p model? commands).stored := by
        funext r
        rw [made_snoc]
        refine propext (or_congr_right ⟨?_, fun hr => ⟨p, model?, commands, horders, hroom, hr⟩⟩)
        rintro ⟨p', model?', commands', horders', -, hr⟩
        obtain ⟨rfl, rfl, rfl⟩ := horders.unique horders'
        exact hr
      obtain ⟨hnew, hfresh⟩ := hids.stored horders hroom
      rw [hmade, handle_of_room hkeys horders hroom]
      exact hbefore.putAll hnew hfresh
    · have hmade : Made c (asked ++ [(o, q)]) = Made c asked := by
        funext r
        rw [made_snoc]
        refine propext (or_iff_left ?_)
        rintro ⟨p, model?, commands, horders, hroom, -⟩
        exact h ⟨p, model?, commands, horders, hroom⟩
      have hnot : ∀ p model? commands, q.Orders p model? commands →
          Channel.largest < c.streaming.capacity.toNat := fun p model? commands horders =>
        Nat.lt_of_not_le fun hroom => h ⟨p, model?, commands, horders, hroom⟩
      rw [hmade, (handle_of_not_streamed hkeys hnot _ o).1]
      exact hbefore

/-! ## What is recalled -/

/-- What a server does that was asked some requests before: it streams what a request orders, if there is room,
and any other that is posted it turns down; it finds just the calls that it has made, and what it finds once it
finds from then on. -/
structure Recalls (c : Configuration) (asked : List (Occasion × Request)) : Prop where
  streamed : ∀ o q p model? commands, q.Orders p model? commands →
    (c.streaming.capacity.toNat ≤ Channel.largest →
      Responds (Streams c (stateAfter c asked) o p model? commands) (handle c (stateAfter c asked) o q)) ∧
    (Channel.largest < c.streaming.capacity.toNat →
      handle c (stateAfter c asked) o q = (stateAfter c asked, none))
  ordered : ∀ o q x, q.method = "POST" → (handle c (stateAfter c asked) o q).2 = some x → x.status = 200 →
    ∃ p model? commands, q.Orders p model? commands
  found : ∀ r, Made c asked r → ∀ o q, q.LooksUp r.callId →
    Responds (Tells (stateAfter c asked) r) (handle c (stateAfter c asked) o q)
  answered : ∀ callId o q, q.LooksUp callId → ∃ x, (handle c (stateAfter c asked) o q).2 = some x ∧
    (x.status = 200 ↔ ∃ r, Made c asked r ∧ r.callId = callId)
  missed : ∀ callId, (∀ r, Made c asked r → r.callId ≠ callId) → ∀ o q, q.LooksUp callId →
    Responds (fun a => a.1 = stateAfter c asked ∧ a.2.status = 404) (handle c (stateAfter c asked) o q)
  /-- An identifier that the frames of a reply tell is that of a call which the reply has made. -/
  told : ∀ o q p model? commands, q.Orders p model? commands → c.streaming.capacity.toNat ≤ Channel.largest →
    ∀ frame ∈ (replyRun c o p model? commands).collector.frames.toList,
      ∀ callId toolName added, .opening callId toolName added ∈ mentions p frame →
        ∃ r, Made c (asked ++ [(o, q)]) r ∧ r.callId = callId ∧ r.toolName = toolName
  kept : ∀ more, IdsDiffer c (asked ++ more) → ∀ o q callId x, q.LooksUp callId →
    (handle c (stateAfter c asked) o q).2 = some x → x.status = 200 →
      (handle c (stateAfter c (asked ++ more)) o q).2 = some x
  /-- Only what is posted and answered well changes what is kept. -/
  unmoved : ∀ o q, (q.method ≠ "POST" ∨ ∀ x, (handle c (stateAfter c asked) o q).2 = some x → x.status ≠ 200) →
    stateAfter c (asked ++ [(o, q)]) = stateAfter c asked

theorem Keeps.tells (hkeys : c.keys = []) (h : Keeps (Made c asked) s) (hr : Made c asked r) (o : Occasion)
    (hq : q.LooksUp r.callId) : Responds (Tells s r) (handle c s o q) :=
  tells_of_get? hkeys hq hr.told.2 (h.found r hr) hr.told.1

theorem Keeps.missed (hkeys : c.keys = []) (h : Keeps (Made c asked) s) {callId : String}
    (hnone : ∀ r, Made c asked r → r.callId ≠ callId) (o : Occasion) (hq : q.LooksUp callId) :
    Responds (fun a => a.1 = s ∧ a.2.status = 404) (handle c s o q) := by
  apply missed_of_get? hkeys hq
  cases hget : s.store.get? callId with
  | none => rfl
  | some r =>
    obtain ⟨hr, hid⟩ := h.only callId r hget
    exact absurd hid (hnone r hr)

/-- A look-up is answered well just under the identifiers of what is kept. -/
theorem Keeps.answered (hkeys : c.keys = []) (h : Keeps (Made c asked) s) {callId : String} (o : Occasion)
    (hq : q.LooksUp callId) :
    ∃ x, (handle c s o q).2 = some x ∧ (x.status = 200 ↔ ∃ r, Made c asked r ∧ r.callId = callId) := by
  by_cases hmade : ∃ r, Made c asked r ∧ r.callId = callId
  · obtain ⟨r, hr, rfl⟩ := hmade
    obtain ⟨x, hx, htells⟩ := h.tells hkeys hr o hq
    exact ⟨x, hx, fun _ => ⟨r, hr, rfl⟩, fun _ => htells.status⟩
  · obtain ⟨x, hx, -, hstatus⟩ := h.missed hkeys (fun r hr hid => hmade ⟨r, hr, hid⟩) o hq
    refine ⟨x, hx, fun hgood => ?_, fun hr => absurd hr hmade⟩
    exact absurd (hgood.symm.trans hstatus) (by decide)

theorem made_of_opening {callId toolName added frame : String} (horders : q.Orders p model? commands)
    (hroom : c.streaming.capacity.toNat ≤ Channel.largest)
    (hframe : frame ∈ (replyRun c o p model? commands).collector.frames.toList)
    (hm : .opening callId toolName added ∈ mentions p frame) :
    ∃ r, Made c (asked ++ [(o, q)]) r ∧ r.callId = callId ∧ r.toolName = toolName := by
  have hrun := Collector.perform_unlimited (replyActions c o p model? commands)
  rw [replyRun, Collector.frames_perform_unlimited] at hframe
  obtain ⟨r, hr, hcall⟩ :=
    Client.exists_stored_of_mention p _ _ commands (List.append_nil _) hframe hm
  refine ⟨r, made_snoc.2 (.inr ⟨p, model?, commands, horders, hroom, ?_⟩), hcall⟩
  exact hrun.stored ▸ hr

/-- Whatever a server without keys was asked, in whatever order and however it answered, it recalls the
calls that it has streamed, as they were streamed, and nothing else, if no two of them were given the same
identifier. -/
theorem recalls_stateAfter (hkeys : c.keys = []) {asked : List (Occasion × Request)} (hids : IdsDiffer c asked) :
    Recalls c asked := by
  have hkeeps := keeps_stateAfter hkeys hids
  exact
    { streamed := fun o q p model? commands h =>
        ⟨fun hroom => streams_of_orders hkeys h hroom _ o, fun hroom => handle_of_no_room hkeys h hroom _ o⟩
      ordered := by
        intro o q x hpost hx hstatus
        by_contra hnone
        have hother := handle_of_not_orders hkeys (fun p model? commands h => hnone ⟨p, model?, commands, h⟩)
          (stateAfter c asked) o
        exact hother.2 hpost x hx hstatus
      found := fun r hr o q hq => hkeeps.tells hkeys hr o hq
      answered := fun callId o q hq => hkeeps.answered hkeys o hq
      missed := fun callId hnone o q hq => hkeeps.missed hkeys hnone o hq
      told := fun o q p model? commands h hroom frame hframe callId toolName added hm =>
        made_of_opening h hroom hframe hm
      kept := by
        intro more hmore o q callId x hq hx hstatus
        obtain ⟨x', hx', hiff⟩ := hkeeps.answered hkeys o hq
        cases Option.some.inj (hx'.symm.trans hx)
        obtain ⟨r, hr, rfl⟩ := hiff.1 hstatus
        have hid := hr.told.2
        have hlater := (keeps_stateAfter hkeys hmore).found r (hr.append more)
        rw [handle_of_get? hkeys hq hid (hkeeps.found r hr)] at hx
        rw [handle_of_get? hkeys hq hid hlater]
        exact hx
      unmoved := by
        intro o q hother
        rw [stateAfter_snoc]
        refine (handle_of_not_streamed hkeys (fun p model? commands h => Nat.lt_of_not_le fun hroom => ?_) _ o).1
        rcases hother with hmethod | hstatus
        · exact hmethod h.method
        · obtain ⟨x, hx, hstreams⟩ := streams_of_orders hkeys h hroom (stateAfter c asked) o
          exact hstatus x hx hstreams.status }

end Runs

/-- A server that was asked for two calls, and then for something it does not have: it finds the second call,
told in full, and nothing under another identifier. -/
theorem recalls_stateAfter_two :
    let c := Configuration.default
    let o : Occasion := ⟨⟨0, ""⟩, fun _ => 0, "", "", fun n => if n = 0 then "a" else "b", fun _ => "now", ""⟩
    let script := "TOOLCALL \"f\" \"x\"\nTOOLCALL \"g\" \"y\""
    let commands : List Command := [⟨.toolCall "f" "x", .unset⟩, ⟨.toolCall "g" "y", .unset⟩]
    let calling : Request := ⟨"POST", ⟨"/v1/messages", none⟩, [], Utf8.encode (askingValue .anthropic script).write⟩
    let lookUp : String → Request := fun segment => ⟨"GET", ⟨"/v1/tool-responses/" ++ segment, none⟩, [], []⟩
    let asked := [(o, calling), (o, lookUp "missing")]
    let called : StoredResponse := .ofCall "toolu_b" "g" "y" .anthropic "now"
    c.keys = [] ∧ IdsDiffer c asked ∧ calling.Orders .anthropic none commands ∧ Made c asked called ∧
      (lookUp "toolu%5Fb").LooksUp "toolu_b" ∧ (lookUp "toolu_c").LooksUp "toolu_c" ∧
      Responds (Tells (stateAfter c asked) called) (handle c (stateAfter c asked) o (lookUp "toolu%5Fb")) ∧
      Responds (fun a => a.1 = stateAfter c asked ∧ a.2.status = 404)
        (handle c (stateAfter c asked) o (lookUp "toolu_c")) := by
  intro c o script commands calling lookUp asked called
  have hkeys : c.keys = [] := rfl
  have hroom : c.streaming.capacity.toNat ≤ Channel.largest := by decide
  have harrives : calling.ArrivesAt (.chat .anthropic none) := ⟨rfl, by decide +kernel, by decide +kernel⟩
  have horders : calling.Orders .anthropic none commands :=
    .intro harrives (fun text h => nomatch h) (i := ⟨none, .ok script⟩) (by decide +kernel) rfl (by decide +kernel)
  -- Only the first request orders calls, and it orders two.
  have hmadeAt : ∀ i n r, MadeAt c asked i n r → i = 0 ∧ n < 2 ∧ r.callId = "toolu_" ++ o.callTag n := by
    rintro i n r ⟨hasked, horders', -, hcall⟩
    match i, hasked with
    | 0, hasked =>
      cases hasked
      obtain ⟨rfl, rfl, rfl⟩ := horders.unique horders'
      exact ⟨rfl, (List.getElem?_eq_some_iff.1 hcall).1, rfl⟩
    | 1, hasked =>
      cases hasked
      exact absurd horders'.method (by decide)
    | i + 2, hasked => cases hasked
  have hids : IdsDiffer c asked := by
    intro i n r i' n' r' hr hr' hid
    obtain ⟨rfl, hn, hrid⟩ := hmadeAt i n r hr
    obtain ⟨rfl, hn', hrid'⟩ := hmadeAt i' n' r' hr'
    rw [hrid, hrid'] at hid
    refine ⟨rfl, ?_⟩
    have htags : ∀ m < 2, ∀ m' < 2, "toolu_" ++ o.callTag m = "toolu_" ++ o.callTag m' → m = m' := by decide
    exact htags n hn n' hn' hid
  have hmadeSecond : MadeAt c asked 0 1
      (.ofCall (Provider.callId .anthropic (o.callTag 1)) "g" "y" .anthropic (o.callTime 1)) :=
    .intro rfl horders hroom rfl
  have hmade : Made c asked called := ⟨0, 1, hmadeSecond⟩
  have hlooks : ∀ segment callId : String, '/' ∉ segment.toList →
      Percent.decode? segment.toList = some callId.toList → (lookUp segment).LooksUp callId := by
    intro segment callId hslash hdecode
    exact ⟨rfl, segment.toList, by rw [String.ofList_toList], hslash, hdecode⟩
  have hsecond := hlooks "toolu%5Fb" "toolu_b" (by decide) (by decide +kernel)
  have hother := hlooks "toolu_c" "toolu_c" (by decide) (by decide +kernel)
  have hrecalls := recalls_stateAfter hkeys hids
  have hnone : ∀ r, Made c asked r → r.callId ≠ "toolu_c" := by
    rintro r ⟨i, n, hr⟩ hid
    obtain ⟨-, hn, hrid⟩ := hmadeAt i n r hr
    have htags : ∀ m < 2, "toolu_" ++ o.callTag m ≠ "toolu_c" := by decide
    exact htags n hn (hrid.symm.trans hid)
  exact ⟨hkeys, hids, horders, hmade, hsecond, hother, hrecalls.found called hmade o _ hsecond,
    hrecalls.missed "toolu_c" hnone o _ hother⟩

end ScriptedModel.Http
