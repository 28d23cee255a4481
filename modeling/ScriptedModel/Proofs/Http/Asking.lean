/-
Requests that ask for a script. Such a request is an object that lists messages, or turns, of which
the last by the user says the script; what other members it has does not matter, as long as their
names are text.

Main statement: whatever route to a stream such a request takes, the server streams the script if there is a
channel for it.
-/
import ScriptedModel.Http.Server
import ScriptedModel.Proofs.Json.Writing
import ScriptedModel.Proofs.Text.Split
import ScriptedModel.Proofs.Text.Utf8

namespace ScriptedModel.Http

open Json (Document Letter)
open ScriptedModel.Stream (Provider)

/-! ## Members of objects -/

/-- The members of an object in a request. -/
abbrev Members := List (List Letter × Document)

/-- Whether the names of members are text. -/
def Members.AreNamed (ms : Members) : Prop := ∀ m ∈ ms, (Letter.string? m.1).isSome

/-- The values of the members of a name, in order. -/
def Members.valuesOf (ms : Members) (name : String) : List Document :=
  (ms.filter fun m => Letter.string? m.1 == some name).map Prod.snd

/-- Whether members give a name something once, or nothing. -/
def Members.Gives (ms : Members) (name : String) (value? : Option Document) : Prop :=
  ms.valuesOf name = value?.toList

/-- Whether a document is a string of a text. -/
def Says (d : Document) (text : String) : Prop := ∃ ls, d = .string ls ∧ Letter.string? ls = some text

/-- Whether a field is left out, null or a text. -/
def MayBeText (value? : Option Document) : Prop :=
  value? = none ∨ value? = some .null ∨ ∃ d text, value? = some d ∧ Says d text

/-! ## Requests -/

/-- A message by the user that says a script. -/
def IsUserMessage (script : String) (d : Document) : Prop :=
  ∃ (ms : Members) (role content : Document), d = .object ms ∧ ms.AreNamed ∧
    ms.Gives "role" (some role) ∧ Says role userRole ∧ ms.Gives "content" (some content) ∧ Says content script

/-- A chat request whose last message by the user says a script. -/
def IsChatRequest (script : String) (d : Document) : Prop :=
  ∃ (ms : Members) (model? : Option Document) (before : List Document) (user : Document) (after : List Document),
    d = .object ms ∧ ms.AreNamed ∧ ms.Gives "model" model? ∧ MayBeText model? ∧
      ms.Gives "messages" (some (.array (before ++ user :: after))) ∧ IsUserMessage script user ∧
      (∀ e ∈ before, (Message.ofDocument? e).isSome) ∧
      ∀ e ∈ after, ∃ m, Message.ofDocument? e = some m ∧ m.role ≠ userRole

/-- A turn by the user of one part, which says a script. -/
def IsUserTurn (script : String) (d : Document) : Prop :=
  ∃ (ms part : Members) (role? : Option Document) (text : Document), d = .object ms ∧ ms.AreNamed ∧
    ms.Gives "role" role? ∧ (role? = none ∨ role? = some .null ∨ ∃ role, role? = some role ∧ Says role userRole) ∧
    ms.Gives "parts" (some (.array [.object part])) ∧ part.AreNamed ∧ part.Gives "text" (some text) ∧ Says text script

/-- A generation request whose last turn by the user says a script. -/
def IsGenerationRequest (script : String) (d : Document) : Prop :=
  ∃ (ms : Members) (before : List Document) (user : Document) (after : List Document),
    d = .object ms ∧ ms.AreNamed ∧ ms.Gives "contents" (some (.array (before ++ user :: after))) ∧
      IsUserTurn script user ∧ (∀ e ∈ before, (Turn.ofDocument? e).isSome) ∧
      ∀ e ∈ after, ∃ t role, Turn.ofDocument? e = some t ∧ t.role? = some role ∧ role ≠ userRole

/-- A request in the format of a provider that says a script. -/
def IsRequest (p : Provider) (script : String) (d : Document) : Prop :=
  match p with
  | .openAi | .anthropic => IsChatRequest script d
  | .gemini => IsGenerationRequest script d

/-- The routes that stream a reply of a provider; their parameters are texts. -/
inductive Route.Streams : Route → Provider → Prop
  | chat : Streams .chatCompletions .openAi
  | deployment {segment name : List Char} (h : Percent.decode? segment = some name) :
    Streams (.deploymentCompletions segment) .openAi
  | model {segment name : List Char} (h : Percent.decode? segment = some name) :
    Streams (.modelCompletions segment) .openAi
  | messages : Streams .messages .anthropic
  | action {segment model action : List Char} (h : Percent.decode? segment = some (model ++ ':' :: action))
    (hm : ':' ∉ model) (ha : String.ofList action ∈ modelActions) : Streams (.generateContent segment) .gemini

/-- A request that asks a provider for the stream of a script. Its body spells what it asks in any
way, and is not too large. -/
structure Request.Asks (q : Request) (p : Provider) (script : String) : Prop where
  method : q.method = "POST"
  route : ∃ r, Route.ofPath? q.target.path = some r ∧ r.Streams p
  body : ∃ cs d, q.body = Utf8.encode cs ∧ Json.Spells d cs ∧ IsRequest p script d
  size : q.body.length ≤ bodyLimit

/-! ## Responses -/

/-- A request is responded to, by a new state and a response of some sort. -/
def Responds (P : State × Response → Prop) (a : State × Option Response) : Prop := ∃ r, a.2 = some r ∧ P (a.1, r)

section Reply

variable {c : Configuration} {s : State} {o : Occasion} {p : Provider} {model? : Option String}
  {commands : List Script.Command}

/-- The run of a reply into a sink that takes everything. -/
def replyRun (c : Configuration) (o : Occasion) (p : Provider) (model? : Option String)
    (commands : List Script.Command) : Stream.Run Stream.Collector :=
  Stream.perform (.empty none) <| p.schedule
    ⟨resolvedModel c model?, c.streaming.latency.toNat, o.clock.seconds, fun n => p.callId (o.callTag n), o.callTime,
      o.draw⟩ (p.replyId o.replyTag) commands

theorem canStream_iff : canStream c = true ↔ c.streaming.capacity.toNat ≤ Stream.Channel.largest := by
  have hone : 1 ≤ Stream.Channel.largest := by decide
  rw [canStream, decide_eq_true_iff, Nat.max_le]
  exact and_iff_right hone

theorem reply_of_le (h : c.streaming.capacity.toNat ≤ Stream.Channel.largest) :
    reply c s o p model? commands =
      (s.after (replyRun c o p model? commands), some (.ofRun p (replyRun c o p model? commands))) := by
  rw [reply, if_pos (canStream_iff.2 h)]
  rfl

theorem reply_of_lt (h : Stream.Channel.largest < c.streaming.capacity.toNat) :
    reply c s o p model? commands = (s, none) :=
  if_neg fun hroom => Nat.not_lt.2 (canStream_iff.1 hroom) h

theorem streamed_of_parse {script : String} (h : Script.parseScript script = .ok commands) :
    streamed c s o p model? script = .ok (reply c s o p model? commands) := by
  rw [streamed, h]

end Reply

/-! ## Reading members -/

namespace Members

variable {ms : Members}

theorem exists_named (h : ms.AreNamed) : ∃ named : List (String × Document),
    (ms.mapM fun m => (Letter.string? m.1).map (·, m.2)) = some named ∧
      ∀ name, (named.filter fun m => m.1 == name).map Prod.snd = ms.valuesOf name := by
  induction ms with
  | nil => exact ⟨[], rfl, fun _ => rfl⟩
  | cons m ms ih =>
    obtain ⟨named, hnamed, hvalues⟩ := ih fun x hx => h x (List.mem_cons_of_mem m hx)
    obtain ⟨text, htext⟩ := Option.isSome_iff_exists.1 (h m List.mem_cons_self)
    refine ⟨(text, m.2) :: named, ?_, fun name => ?_⟩
    · rw [List.mapM_cons, htext, hnamed]
      rfl
    · have hname : (Letter.string? m.1 == some name) = (text == name) := by
        rw [htext]
        rfl
      rw [List.filter_cons, valuesOf, List.filter_cons, hname]
      split
      · rw [List.map_cons, List.map_cons, hvalues]
        rfl
      · exact hvalues name

theorem named?_of_gives {named : List (String × Document)} {name : String} {value? : Option Document}
    (h : (named.filter fun m => m.1 == name).map Prod.snd = value?.toList) :
    Field.named? named name = some value? := by
  unfold Field.named?
  generalize named.filter (fun m => m.1 == name) = found at h ⊢
  rcases found with _ | ⟨m, _ | ⟨m', rest⟩⟩
  · cases value? with
    | none => rfl
    | some d => cases h
  · cases value? with
    | none => cases h
    | some d => cases h; rfl
  · cases value? <;> cases h

theorem record?_one (h : ms.AreNamed) {name : String} {value? : Option Document} (hv : ms.Gives name value?) :
    (Document.object ms).record? [name] = some [value?] := by
  obtain ⟨named, hnamed, hvalues⟩ := exists_named h
  have hfield := named?_of_gives ((hvalues name).trans hv)
  rw [Document.record?, hnamed]
  show [name].mapM (Field.named? named) = _
  rw [List.mapM_cons, hfield]
  rfl

theorem record?_two (h : ms.AreNamed) {name₁ name₂ : String} {value₁ value₂ : Option Document}
    (h₁ : ms.Gives name₁ value₁) (h₂ : ms.Gives name₂ value₂) :
    (Document.object ms).record? [name₁, name₂] = some [value₁, value₂] := by
  obtain ⟨named, hnamed, hvalues⟩ := exists_named h
  have hfield₁ := named?_of_gives ((hvalues name₁).trans h₁)
  have hfield₂ := named?_of_gives ((hvalues name₂).trans h₂)
  rw [Document.record?, hnamed]
  show [name₁, name₂].mapM (Field.named? named) = _
  rw [List.mapM_cons, List.mapM_cons, hfield₁, hfield₂]
  rfl

end Members

/-! ## Reading requests -/

theorem string?_of_told {d : Document} {text : String} (h : Says d text) : d.string? = some text := by
  obtain ⟨ls, rfl, hls⟩ := h
  exact hls

theorem readOr_of_mayBeText {value? : Option Document} (h : MayBeText value?) :
    ∃ text?, Field.readOr none (Document.nullable? Document.string?) value? = some text? := by
  rcases h with rfl | rfl | ⟨d, text, rfl, ls, rfl, hls⟩
  · exact ⟨none, rfl⟩
  · exact ⟨none, rfl⟩
  · refine ⟨some text, ?_⟩
    show (Letter.string? ls).map some = some (some text)
    rw [hls]
    rfl

theorem ofDocument?_content {d : Document} {text : String} (h : Says d text) :
    Content.ofDocument? d = some (.text text) := by
  obtain ⟨ls, rfl, hls⟩ := h
  -- The content is read as a value first, which a text always is.
  have hvalue : (Document.string ls).value? contentNesting = some (.string text) := by
    rw [Document.value?, hls]
    rfl
  have hstring : (Document.string ls).string? = some text := hls
  rw [Content.ofDocument?, hvalue]
  simp only [hstring]

theorem ofDocument?_userMessage {script : String} {d : Document} (h : IsUserMessage script d) :
    Message.ofDocument? d = some ⟨userRole, .text script⟩ := by
  obtain ⟨ms, role, content, rfl, hnamed, hrole, htold, hcontent, hscript⟩ := h
  rw [Message.ofDocument?, Members.record?_two hnamed hrole hcontent]
  have hread : Field.readOr (.text "") Content.ofDocument? (some content) = some (.text script) :=
    ofDocument?_content hscript
  simp only [Option.bind_eq_bind, Option.bind_some, string?_of_told htold, hread]
  rfl

theorem exists_mapM_all {α β : Type} {read : α → Option β} {p : β → Prop} {xs : List α}
    (h : ∀ x ∈ xs, ∃ y, read x = some y ∧ p y) : ∃ ys, xs.mapM read = some ys ∧ ∀ y ∈ ys, p y := by
  induction xs with
  | nil => exact ⟨[], rfl, fun _ h => nomatch h⟩
  | cons x xs ih =>
    obtain ⟨y, hy, hp⟩ := h x List.mem_cons_self
    obtain ⟨ys, hys, hps⟩ := ih fun z hz => h z (List.mem_cons_of_mem x hz)
    refine ⟨y :: ys, by rw [List.mapM_cons, hy, hys]; rfl, fun z hz => ?_⟩
    rcases List.mem_cons.1 hz with rfl | hz
    · exact hp
    · exact hps z hz

theorem exists_mapM {α β : Type} {read : α → Option β} {xs : List α} (h : ∀ x ∈ xs, (read x).isSome) :
    ∃ ys, xs.mapM read = some ys := by
  obtain ⟨ys, hys, -⟩ := exists_mapM_all (p := fun _ => True) fun x hx =>
    (Option.isSome_iff_exists.1 (h x hx)).imp fun _ hy => ⟨hy, trivial⟩
  exact ⟨ys, hys⟩

/-- Of a list, an item is found from the back if it has what is looked for and no later one does. -/
theorem find?_reverse {α : Type} {p : α → Bool} (xs : List α) {x : α} {ys : List α} (hx : p x = true)
    (hys : ∀ y ∈ ys, p y = false) : (xs ++ x :: ys).reverse.find? p = some x := by
  rw [List.reverse_append, List.reverse_cons, List.append_assoc, List.find?_append,
    List.find?_eq_none.2 fun y hy => by rw [hys y (List.mem_reverse.1 hy)]; exact Bool.false_ne_true]
  show ([x] ++ xs.reverse).find? p = some x
  rw [List.singleton_append, List.find?_cons_of_pos hx]

/-- The script of a conversation is what the last message by the user says. -/
theorem prompt_of_messages {r : ChatRequest} {before after : List Message} {user : Message}
    (hmessages : r.messages? = some (before ++ user :: after)) (huser : user.role = userRole)
    (hafter : ∀ m ∈ after, m.role ≠ userRole) : r.prompt = .ok user.content.prompt := by
  have hfind : (before ++ user :: after).reverse.find? (fun m => m.role == userRole) = some user :=
    find?_reverse before (beq_iff_eq.2 huser) fun m hm => beq_eq_false_iff_ne.2 (hafter m hm)
  obtain ⟨m, ms, hne⟩ := List.exists_cons_of_ne_nil
    (List.append_ne_nil_of_right_ne_nil before (List.cons_ne_nil user after))
  rw [hne] at hfind
  rw [ChatRequest.prompt, hmessages, Option.getD_some, hne]
  simp only [hfind]

/-- The script of a conversation in turns is what the last turn by the user says. -/
theorem prompt_of_contents {r : GenerationRequest} {before after : List Turn} {turn : Turn}
    (hcontents : r.contents? = some (before ++ turn :: after))
    (hturn : turn.role?.all (fun k => k == userRole) = true)
    (hafter : ∀ t ∈ after, t.role?.all (fun k => k == userRole) = false) : r.prompt = .ok turn.prompt := by
  have hfind : (before ++ turn :: after).reverse.find? (fun t => t.role?.all fun k => k == userRole) = some turn :=
    find?_reverse before hturn hafter
  obtain ⟨t, ts, hne⟩ := List.exists_cons_of_ne_nil
    (List.append_ne_nil_of_right_ne_nil before (List.cons_ne_nil turn after))
  rw [hne] at hfind
  rw [GenerationRequest.prompt, hcontents, Option.getD_some, hne]
  simp only [hfind]

/-- The script of a chat request is what its last message by the user says. -/
theorem prompt_chatRequest {script : String} {d : Document} (h : IsChatRequest script d) :
    ∃ r, ChatRequest.ofDocument? d = some r ∧ r.prompt = .ok script := by
  obtain ⟨ms, model?, before, user, after, rfl, hnamed, hmodel, hmay, hmessages, huser, hbefore, hafter⟩ := h
  obtain ⟨text?, htext⟩ := readOr_of_mayBeText hmay
  -- The other messages are read too, and none of those after it is by the user.
  obtain ⟨xs, hxs⟩ := exists_mapM hbefore
  obtain ⟨ys, hys, hother⟩ := exists_mapM_all hafter
  have hitems : (before ++ user :: after).mapM Message.ofDocument? =
      some (xs ++ ⟨userRole, .text script⟩ :: ys) := by
    rw [List.mapM_append, List.mapM_cons, hxs, ofDocument?_userMessage huser, hys]
    rfl
  have hread : Field.readOr none (Document.nullable? (Document.list? Message.ofDocument?))
      (some (.array (before ++ user :: after))) = some (some (xs ++ ⟨userRole, .text script⟩ :: ys)) := by
    show ((before ++ user :: after).mapM Message.ofDocument?).map some = _
    rw [hitems]
    rfl
  refine ⟨⟨text?, some (xs ++ ⟨userRole, .text script⟩ :: ys)⟩, ?_, ?_⟩
  · rw [ChatRequest.ofDocument?, Members.record?_two hnamed hmodel hmessages]
    simp only [Option.bind_eq_bind, Option.bind_some, htext, hread]
    rfl
  · have huser : (⟨userRole, .text script⟩ : Message).role = userRole := rfl
    exact prompt_of_messages rfl huser hother

theorem partText?_of_told {part : Members} {text : Document} {script : String} (hnamed : part.AreNamed)
    (htext : part.Gives "text" (some text)) (htold : Says text script) :
    Turn.partText? (.object part) = some (some script) := by
  obtain ⟨ls, rfl, hls⟩ := htold
  rw [Turn.partText?, Members.record?_one hnamed htext]
  show (Letter.string? ls).map some = _
  rw [hls]
  rfl

theorem ofDocument?_userTurn {script : String} {d : Document} (h : IsUserTurn script d) :
    ∃ role?, Turn.ofDocument? d = some ⟨role?, [some script]⟩ ∧ role?.all (fun k => k == userRole) = true := by
  obtain ⟨ms, part, role?, text, rfl, hnamed, hrole, huser, hparts, hpart, htext, htold⟩ := h
  have hread : Field.readOr [] (Document.list? Turn.partText?) (some (.array [.object part])) =
      some [some script] := by
    show [Document.object part].mapM Turn.partText? = _
    rw [List.mapM_cons, partText?_of_told hpart htext htold]
    rfl
  obtain ⟨named?, hnamed?, hall⟩ : ∃ named?, Field.readOr none (Document.nullable? Document.string?) role? =
      some named? ∧ named?.all (fun k => k == userRole) = true := by
    rcases huser with rfl | rfl | ⟨role, rfl, ls, rfl, hls⟩
    · exact ⟨none, rfl, rfl⟩
    · exact ⟨none, rfl, rfl⟩
    · refine ⟨some userRole, ?_, rfl⟩
      show (Letter.string? ls).map some = _
      rw [hls]
      rfl
  refine ⟨named?, ?_, hall⟩
  rw [Turn.ofDocument?, Members.record?_two hnamed hrole hparts]
  simp only [Option.bind_eq_bind, Option.bind_some, hnamed?, hread]
  rfl

theorem prompt_singleton (role? : Option String) (script : String) :
    (⟨role?, [some script]⟩ : Turn).prompt = script := by
  by_cases h : script = ""
  · rw [h]
    rfl
  · have hfilter : [script].filter (fun s => s ≠ "") = [script] := by
      rw [List.filter_cons_of_pos (by simpa using h)]
      rfl
    show "\n".intercalate ([script].filter fun s => s ≠ "") = script
    rw [hfilter]
    rfl

/-- The script of a generation request is what its last turn by the user says. -/
theorem prompt_generationRequest {script : String} {d : Document} (h : IsGenerationRequest script d) :
    ∃ r, GenerationRequest.ofDocument? d = some r ∧ r.prompt = .ok script := by
  obtain ⟨ms, before, user, after, rfl, hnamed, hcontents, huser, hbefore, hafter⟩ := h
  obtain ⟨role?, hturn, hrole⟩ := ofDocument?_userTurn huser
  obtain ⟨xs, hxs⟩ := exists_mapM hbefore
  obtain ⟨ys, hys, hother⟩ := exists_mapM_all (p := fun t : Turn => t.role?.all (fun k => k == userRole) = false)
    fun e he => by
      obtain ⟨t, role, ht, htrole, hne⟩ := hafter e he
      refine ⟨t, ht, ?_⟩
      rw [htrole]
      exact beq_eq_false_iff_ne.2 hne
  have hitems : (before ++ user :: after).mapM Turn.ofDocument? = some (xs ++ ⟨role?, [some script]⟩ :: ys) := by
    rw [List.mapM_append, List.mapM_cons, hxs, hturn, hys]
    rfl
  have hread : Field.readOr none (Document.nullable? (Document.list? Turn.ofDocument?))
      (some (.array (before ++ user :: after))) = some (some (xs ++ ⟨role?, [some script]⟩ :: ys)) := by
    show ((before ++ user :: after).mapM Turn.ofDocument?).map some = _
    rw [hitems]
    rfl
  refine ⟨⟨some (xs ++ ⟨role?, [some script]⟩ :: ys)⟩, ?_, ?_⟩
  · rw [GenerationRequest.ofDocument?, Members.record?_one hnamed hcontents]
    simp only [Option.bind_eq_bind, Option.bind_some, hread]
    rfl
  · have hlast : (⟨role?, [some script]⟩ : Turn).role?.all (fun k => k == userRole) = true := hrole
    rw [prompt_of_contents rfl hlast hother, prompt_singleton]

/-! ## A request for every script -/

theorem says_document (text : String) : Says (Json.Value.string text).document text :=
  ⟨Letter.ofText text, rfl, Letter.string?_ofText text⟩

namespace Members

theorem areNamed_document (ms : List (String × Json.Value)) : AreNamed (Json.memberDocuments ms) := by
  induction ms with
  | nil => exact fun _ h => nomatch h
  | cons m ms ih =>
    intro x hx
    rcases List.mem_cons.1 hx with rfl | hx
    · rw [Letter.string?_ofText]
      rfl
    · exact ih x hx

theorem valuesOf_document (ms : List (String × Json.Value)) (name : String) :
    valuesOf (Json.memberDocuments ms) name = (ms.filter fun m => m.1 == name).map fun m => m.2.document := by
  induction ms with
  | nil => rfl
  | cons m ms ih =>
    obtain ⟨k, v⟩ := m
    rw [valuesOf] at ih ⊢
    rw [Json.memberDocuments, List.filter_cons, List.filter_cons, Letter.string?_ofText_beq]
    cases k == name with
    | true => exact congrArg (v.document :: ·) ih
    | false => exact ih

theorem gives_document {ms : List (String × Json.Value)} {name : String} {v : Json.Value}
    (h : (ms.filter fun m => m.1 == name) = [(name, v)]) :
    Gives (Json.memberDocuments ms) name (some v.document) := by
  rw [Gives, valuesOf_document, h]
  rfl

end Members

/-- The message by the user that says a script. -/
def askingMessage (script : String) : Json.Value := .object [("role", .string userRole), ("content", .string script)]

/-- The turn by the user that says a script. -/
def askingTurn (script : String) : Json.Value :=
  .object [("role", .string userRole), ("parts", .array [.object [("text", .string script)]])]

/-- The body that asks a provider for a script and nothing else. -/
def askingValue (p : Provider) (script : String) : Json.Value :=
  match p with
  | .openAi | .anthropic => .object [("messages", .array [askingMessage script])]
  | .gemini => .object [("contents", .array [askingTurn script])]

theorem isUserMessage_document (script : String) : IsUserMessage script (askingMessage script).document :=
  ⟨_, _, _, rfl, Members.areNamed_document _, Members.gives_document rfl, says_document userRole,
    Members.gives_document rfl, says_document script⟩

theorem isUserTurn_document (script : String) : IsUserTurn script (askingTurn script).document := by
  let ms : List (String × Json.Value) :=
    [("role", .string userRole), ("parts", .array [.object [("text", .string script)]])]
  have hparts : Members.Gives (Json.memberDocuments ms) "parts"
      (some (Json.Value.array [.object [("text", .string script)]]).document) := Members.gives_document rfl
  exact ⟨_, _, _, _, rfl, Members.areNamed_document ms, Members.gives_document rfl,
    .inr (.inr ⟨_, rfl, says_document userRole⟩), hparts, Members.areNamed_document [("text", .string script)],
    Members.gives_document rfl, says_document script⟩

/-- Every script can be asked for. -/
theorem isRequest_askingValue (p : Provider) (script : String) :
    IsRequest p script (askingValue p script).document := by
  have hnone : ∀ {P : Document → Prop}, ∀ e ∈ ([] : List Document), P e := fun _ h => nomatch h
  have hchat : IsChatRequest script (askingValue .openAi script).document := by
    have hmessages : Members.Gives (Json.memberDocuments [("messages", .array [askingMessage script])]) "messages"
        (some (Json.Value.array [askingMessage script]).document) := Members.gives_document rfl
    exact ⟨_, none, [], _, [], rfl, Members.areNamed_document _, Members.valuesOf_document _ _, .inl rfl, hmessages,
      isUserMessage_document script, hnone, hnone⟩
  cases p with
  | openAi => exact hchat
  | anthropic => exact hchat
  | gemini =>
    have hcontents : Members.Gives (Json.memberDocuments [("contents", .array [askingTurn script])]) "contents"
        (some (Json.Value.array [askingTurn script]).document) := Members.gives_document rfl
    exact ⟨_, [], _, [], rfl, Members.areNamed_document _, hcontents, isUserTurn_document script, hnone, hnone⟩

/-! ## Answering -/

theorem modelOfAction_append {model action : List Char} (hm : ':' ∉ model)
    (ha : String.ofList action ∈ modelActions) :
    modelOfAction (model ++ ':' :: action) = .ok (String.ofList model) := by
  rw [modelOfAction, Split.atFirst?_append hm]
  simp only [List.contains_iff_mem.2 ha, if_true]

theorem parameter_of_decode? {segment text : List Char} (h : Percent.decode? segment = some text) (name : String) :
    parameter name segment = .ok text := by
  rw [parameter, h]
  rfl

section Answer

variable {c : Configuration} {s : State} {o : Occasion} {q : Request} {script : String}

theorem source_of_asks {p : Provider} (h : q.Asks p script) :
    ∃ r d, q.source = .ok r ∧ Document.ofSource? r = some d ∧ IsRequest p script d := by
  obtain ⟨cs, d, hbody, hspells, hrequest⟩ := h.body
  refine ⟨cs.map some, d, ?_, Document.ofSource?_of_spells hspells, hrequest⟩
  rw [Request.source, if_neg (Nat.not_lt.2 h.size), hbody, Utf8.decode_encode]

/-- A chat reads its request, then the script in it, and streams that. -/
theorem chat_of_source {r : Json.Source} (hr : q.source = .ok r) (p : Provider) (pathModel? : Option String) :
    chat c s o p pathModel? q = orReject ((ChatRequest.ofBody o.refusal r).bind fun request =>
      request.prompt.bind fun script => streamed c s o p (request.model?.or pathModel?) script) := by
  rw [chat, hr]
  rfl

/-- An action of a model is looked at before the request is read. -/
theorem generate_of_source {r : Json.Source} (hr : q.source = .ok r) (segment : List Char) :
    generate c s o segment q = orReject ((modelOfAction segment).bind fun model =>
      (GenerationRequest.ofBody o.refusal r).bind fun request =>
        request.prompt.bind fun script => streamed c s o .gemini (some model) script) := by
  rw [generate, hr]
  rfl

theorem chat_of_isChatRequest {r : Json.Source} {d : Document} (hr : q.source = .ok r)
    (hd : Document.ofSource? r = some d) (h : IsChatRequest script d) (p : Provider) (pathModel? : Option String) :
    ∃ asked?, chat c s o p pathModel? q = orReject (streamed c s o p asked? script) := by
  obtain ⟨request, hrequest, hprompt⟩ := prompt_chatRequest h
  refine ⟨request.model?.or pathModel?, ?_⟩
  have hbody : ChatRequest.ofBody o.refusal r = .ok request := by
    rw [ChatRequest.ofBody, hd, Option.bind_some, hrequest]
    rfl
  rw [chat_of_source hr, hbody]
  show orReject (request.prompt.bind fun script => streamed c s o p (request.model?.or pathModel?) script) = _
  rw [hprompt]
  rfl

theorem generate_of_isGenerationRequest {r : Json.Source} {d : Document} (hr : q.source = .ok r)
    (hd : Document.ofSource? r = some d) (h : IsGenerationRequest script d) {model action : List Char}
    (hm : ':' ∉ model) (ha : String.ofList action ∈ modelActions) :
    generate c s o (model ++ ':' :: action) q =
      orReject (streamed c s o .gemini (some (String.ofList model)) script) := by
  obtain ⟨request, hrequest, hprompt⟩ := prompt_generationRequest h
  have hbody : GenerationRequest.ofBody o.refusal r = .ok request := by
    rw [GenerationRequest.ofBody, hd, Option.bind_some, hrequest]
    rfl
  rw [generate_of_source hr, modelOfAction_append hm ha, hbody]
  show orReject (request.prompt.bind fun script => streamed c s o .gemini (some (String.ofList model)) script) = _
  rw [hprompt]
  rfl

/-- A route that streams answers a request for a script by the stream of the script. -/
theorem answer_of_asks {p : Provider} {r : Route} (h : q.Asks p script) (hr : r.Streams p) :
    ∃ asked?, answer c s o r q = orReject (streamed c s o p asked? script) := by
  obtain ⟨source, d, hsource, hd, hrequest⟩ := source_of_asks h
  cases hr with
  | chat => exact chat_of_isChatRequest hsource hd hrequest .openAi none
  | @deployment segment name hname =>
    rw [answer, parameter_of_decode? hname]
    exact chat_of_isChatRequest hsource hd hrequest .openAi (some (String.ofList name))
  | @model segment name hname =>
    rw [answer, parameter_of_decode? hname]
    exact chat_of_isChatRequest hsource hd hrequest .openAi (some (String.ofList name))
  | messages => exact chat_of_isChatRequest hsource hd hrequest .anthropic none
  | @action segment model action hsegment hm ha =>
    rw [answer, parameter_of_decode? hsegment]
    exact ⟨_, generate_of_isGenerationRequest hsource hd hrequest hm ha⟩

theorem isPosted_of_streams {p : Provider} {r : Route} (h : r.Streams p) : r.isPosted = true := by
  cases h <;> rfl

/-- A request that reaches a route: its path leads there, and its method is the one by which the route is
asked for what it has to say. -/
structure Request.Reaches (q : Request) (r : Route) : Prop where
  path : Route.ofPath? q.target.path = some r
  method : q.method = if r.isPosted then "POST" else "GET"

theorem Request.Reaches.plain {r : Route} (h : q.Reaches r) :
    q.method ≠ "OPTIONS" ∧ q.method ≠ "HEAD" ∧ r.allows q.method = true := by
  rw [h.method, Route.allows]
  cases r.isPosted <;> decide

theorem ne_head_of_posted (h : q.method = "POST") : q.method ≠ "HEAD" := by
  rw [h]
  decide

theorem status_finished (x : Response) : (finished c o q x).status = x.status := by
  unfold finished
  split <;> rfl

/-- A response is sent with its body, and with the headers that all responses have, unless just its headers are
asked for. -/
theorem finished_of_ne_head (h : q.method ≠ "HEAD") (c : Configuration) (o : Occasion) (x : Response) :
    finished c o q x = { x with headers := x.headers ++ sharedHeaders c o q } := by
  rw [finished, if_neg h]

/-- What reaches a route gets the answer of the route. -/
theorem handle_of_reaches {r : Route} (h : q.Reaches r) (c : Configuration) (s : State) (o : Occasion) :
    handle c s o q = ((routed c s o r q).1, (routed c s o r q).2.map (finished c o q)) := by
  have hdispatched : dispatched c s o q = routed c s o r q := by
    rw [dispatched, if_neg h.plain.1, h.path]
  rw [handle, hdispatched]

/-- A route answers what reaches it unless a key is asked for and missing. -/
theorem routed_of_admitted {r : Route} (h : q.Reaches r)
    (hkey : asksKey c r = true → checkKey c q = .ok ()) : routed c s o r q = answered c s o r q := by
  have hguard : (if asksKey c r then checkKey c q else .ok ()) = .ok () := by
    split
    case isTrue hasks => exact hkey hasks
    case isFalse => rfl
  rw [routed, hguard, h.plain.2.2]

theorem asksKey_of_keyless (hkeys : c.keys = []) (r : Route) : asksKey c r = false := by
  rw [asksKey, Configuration.isGuarded, hkeys]
  rfl

/-- A server without keys leaves what reaches a route to the answer of the route. -/
theorem handle_of_keyless (hkeys : c.keys = []) {r : Route} (h : q.Reaches r) (s : State) (o : Occasion) :
    handle c s o q = ((answered c s o r q).1, (answered c s o r q).2.map (finished c o q)) := by
  have hkey : asksKey c r = true → checkKey c q = .ok () := by
    rw [asksKey_of_keyless hkeys r]
    exact fun hasks => absurd hasks Bool.false_ne_true
  rw [handle_of_reaches h, routed_of_admitted h hkey]

theorem reaches_of_posted {r : Route} (hmethod : q.method = "POST") (hpath : Route.ofPath? q.target.path = some r)
    (hr : r.isPosted = true) : q.Reaches r :=
  ⟨hpath, by rw [hmethod, hr, if_pos rfl]⟩

/-- A server without keys answers a request for a script by the stream of the script, with nothing
changed but the headers that all responses have. -/
theorem handle_of_asks (hkeys : c.keys = []) {p : Provider} (h : q.Asks p script) (s : State) (o : Occasion) :
    ∃ asked?, ∀ a, streamed c s o p asked? script = .ok a → handle c s o q = (a.1, a.2.map (finished c o q)) := by
  obtain ⟨r, hpath, hstreams⟩ := h.route
  obtain ⟨asked?, hanswer⟩ := answer_of_asks (c := c) (s := s) (o := o) h hstreams
  refine ⟨asked?, fun a ha => ?_⟩
  have hanswered : answered c s o r q = a := by
    rw [answered, hanswer, ha]
    rfl
  rw [handle_of_keyless hkeys (reaches_of_posted h.method hpath (isPosted_of_streams hstreams)), hanswered]

end Answer

end ScriptedModel.Http
