/-
The model that a reply names. A chat request can name a model in its body and, on some routes, in its path.
The reply names one model throughout: every chunk of the OpenAI format does, and the start of a message in
the Anthropic format.

Main statement: the reply names the model of the body if that names one, else the one of the path, else the
default. A body that gives the empty text for its model is an exception: it names no model, and hides that of
the path, so that the reply names the default.
-/
import ScriptedModel.Proofs.Client.Assembly
import ScriptedModel.Proofs.Client.Message
import ScriptedModel.Proofs.Http.Keys
import ScriptedModel.Proofs.Http.Recall

namespace ScriptedModel.Client

open Json (Document Value)
open Script (Command)
open ScriptedModel.Stream

/-! ## What clients read -/

/-- The document that the data of an event spells. -/
def document? (e : EventStream.Event) : Option Document := Document.ofSource? (Json.sourceOf e.data)

/-- The replies that name a model: in each chunk before the sign that the reply is over, or in the message that
their first event starts, and nowhere else. -/
inductive Echoes (model : String) : Provider → String → Prop
  | openAi {body : String} {chunks : List EventStream.Event} {last : EventStream.Event}
    (hread : EventStream.read body = chunks ++ [last]) (hne : chunks ≠ []) (hlast : last.data = "[DONE]")
    (hchunks : ∀ e ∈ chunks, ∃ d, document? e = some d ∧ Anthropic.Change.text? "model" d = some model) :
    Echoes model .openAi body
  | anthropic {body : String} {start : EventStream.Event} {rest : List EventStream.Event} {d message : Document}
    (hread : EventStream.read body = start :: rest) (hname : start.name = "message_start")
    (hstart : document? start = some d) (hmessage : d.member? "message" = some message)
    (hmodel : Anthropic.Change.text? "model" message = some model)
    (hrest : ∀ e ∈ rest, e.name ≠ "message_start" ∧
      ∃ d, document? e = some d ∧ d.member? "message" = none ∧ d.member? "model" = none) :
    Echoes model .anthropic body

/-- A reply names one model. -/
theorem Echoes.unique {p : Provider} {body model model' : String} (h : Echoes model p body)
    (h' : Echoes model' p body) : model = model' := by
  cases h with
  | @openAi _ chunks last hread hne _ hchunks =>
    cases h' with
    | @openAi _ chunks' last' hread' _ _ hchunks' =>
      have hboth := hread.symm.trans hread'
      obtain ⟨rfl, -⟩ := List.append_inj' hboth rfl
      obtain ⟨e, es, rfl⟩ := List.exists_cons_of_ne_nil hne
      obtain ⟨d, hd, hmodel⟩ := hchunks e List.mem_cons_self
      obtain ⟨d', hd', hmodel'⟩ := hchunks' e List.mem_cons_self
      cases Option.some.inj (hd.symm.trans hd')
      exact Option.some.inj (hmodel.symm.trans hmodel')
  | anthropic hread _ hstart hmessage hmodel _ =>
    cases h' with
    | anthropic hread' _ hstart' hmessage' hmodel' _ =>
      obtain ⟨rfl, -⟩ := List.cons.inj (hread.symm.trans hread')
      cases Option.some.inj (hstart.symm.trans hstart')
      cases Option.some.inj (hmessage.symm.trans hmessage')
      exact Option.some.inj (hmodel.symm.trans hmodel')

/-! ## What is sent -/

theorem document?_received (name? : Option String) (v : Value) :
    document? (Message.event name? v).received = some v.document := v.ofSource?_compact

theorem messageStart_notMem_blockEvents (id model : String) (index : Nat) (bs : List Stream.Anthropic.FilledBlock) :
    .messageStart id model ∉ Stream.Anthropic.blockEvents index bs := by
  induction bs generalizing index with
  | nil => exact List.not_mem_nil
  | cons b bs ih => simp [Stream.Anthropic.blockEvents, Stream.Anthropic.FilledBlock.events, ih]

/-- An event that does not start a message names no model. -/
theorem names_nothing {e : Stream.Anthropic.Event} (h : ∀ id model, e ≠ .messageStart id model) :
    (Message.ofAnthropic e).received.name ≠ "message_start" ∧
      ∃ d, document? (Message.ofAnthropic e).received = some d ∧ d.member? "message" = none ∧
        d.member? "model" = none := by
  have hdocument : document? (Message.ofAnthropic e).received = some e.toJson.document := document?_received _ _
  refine ⟨?_, _, hdocument, ?_, ?_⟩
  · show e.name ≠ "message_start"
    cases e with
    | messageStart id model => exact absurd rfl (h id model)
    | _ =>
      rw [Stream.Anthropic.Event.name]
      decide
  all_goals
    rw [Document.member?_document]
    cases e with
    | messageStart id model => exact absurd rfl (h id model)
    | _ => rfl

section Reply

variable (x : Context) (replyId : String) (cs : List Command)

theorem read_body {p : Provider} (hp : p ≠ .gemini) :
    EventStream.read (perform (Collector.empty none) (p.schedule x replyId cs)).collector.body =
      (messages p x replyId cs).map Message.received := by
  have hread := read_take hp x replyId cs (messages p x replyId cs).length
  rw [List.take_length] at hread
  rw [← hread, ← frames_schedule_eq_messages, ← Collector.frames_perform_unlimited]
  rfl

theorem messages_responseChunks : messages .openAi x replyId cs =
    ((OpenAi.responseChunks x replyId (spoken cs)).map fun c => Message.event none c.toJson) ++ [.done] := by
  have hevents : OpenAi.unitEvents (Stream.OpenAi.State.initial replyId x.created x.model) (units x (spoken cs)) =
      (OpenAi.responseChunks x replyId (spoken cs)).map .chunk :=
    OpenAi.unitEvents_place x.callId true (Stream.OpenAi.State.initial replyId x.created x.model)
      ((spoken cs).flatMap matter)
  rw [messages, hevents, List.map_append, List.map_map]
  rfl

theorem echoes_openAi :
    Echoes x.model .openAi (perform (Collector.empty none) (Provider.openAi.schedule x replyId cs)).collector.body := by
  have hmessage := OpenAi.isMessage_responseChunks x replyId (spoken_ne_nil cs)
  have hread := read_body x replyId cs (p := .openAi) (by decide)
  rw [messages_responseChunks, List.map_append, List.map_map] at hread
  refine .openAi hread ?_ rfl fun e he => ?_
  · simpa using hmessage.ne_nil
  · obtain ⟨c, hc, rfl⟩ := List.mem_map.1 he
    obtain ⟨-, -, -, hmodel⟩ := hmessage.names _ (List.mem_map_of_mem hc)
    refine ⟨_, document?_received none c.toJson, ?_⟩
    rw [Anthropic.text?_document, hmodel]
    exact Document.string?_document x.model

theorem echoes_anthropic : Echoes x.model .anthropic
    (perform (Collector.empty none) (Provider.anthropic.schedule x replyId cs)).collector.body := by
  have hread := read_body x replyId cs (p := .anthropic) (by decide)
  obtain ⟨reason, tokens, hevents⟩ := messages_messageEvents x replyId cs
  rw [hevents, Stream.Anthropic.messageEvents, List.cons_append, List.map_cons, List.map_cons] at hread
  refine .anthropic hread rfl (document?_received _ _) (Document.member?_document _ _) ?_ fun e he => ?_
  · exact (Anthropic.text?_document _ "model").trans (Document.string?_document x.model)
  · obtain ⟨m, hm, rfl⟩ := List.mem_map.1 he
    obtain ⟨e, hmem, rfl⟩ := List.mem_map.1 hm
    refine names_nothing fun id model => ?_
    rintro rfl
    simp [messageStart_notMem_blockEvents] at hmem

/-- A reply names the model of its context. -/
theorem echoes_perform {p : Provider} (hp : p ≠ .gemini) :
    Echoes x.model p (perform (Collector.empty none) (p.schedule x replyId cs)).collector.body := by
  cases p with
  | openAi => exact echoes_openAi x replyId cs
  | anthropic => exact echoes_anthropic x replyId cs
  | gemini => exact absurd rfl hp

end Reply

end ScriptedModel.Client

namespace ScriptedModel.Http

open Client (Echoes)
open Json (Document Letter)
open ScriptedModel.Stream (Provider)

/-! ## Models that are asked for -/

/-- The paths that lead to the chat of a provider, and the model that they name: the text of the segment after
the deployments or the models, its escapes replaced. -/
inductive LeadsTo : Provider → Option String → String → Prop
  | openAi : LeadsTo .openAi none "/v1/chat/completions"
  | anthropic : LeadsTo .anthropic none "/v1/messages"
  | deployment {segment : List Char} {model : String} (hsegment : '/' ∉ segment)
    (hmodel : Percent.decode? segment = some model.toList) :
    LeadsTo .openAi (some model) ("/openai/deployments/" ++ String.ofList segment ++ "/chat/completions")
  | model {segment : List Char} {model : String} (hsegment : '/' ∉ segment)
    (hmodel : Percent.decode? segment = some model.toList) :
    LeadsTo .openAi (some model) ("/openai/models/" ++ String.ofList segment ++ "/chat/completions")

/-- The field for the model in a chat request, which is an object or the list of its fields. -/
inductive ModelField : Document → Option Document → Prop
  | object {ms : Members} {value? : Option Document} (h : ms.Gives "model" value?) : ModelField (.object ms) value?
  | list (ds : List Document) : ModelField (.array ds) ds.head?

/-- The text of a field that may be left out or null. -/
inductive FieldSays : Option Document → Option String → Prop
  | absent : FieldSays none none
  | null : FieldSays (some .null) none
  | text {d : Document} {text : String} (h : Says d text) : FieldSays (some d) (some text)

/-- The text that the body of a request gives for its model, if it gives one. -/
def Request.GivesModel (q : Request) (model? : Option String) : Prop :=
  ∃ d value?, Document.ofSource? (Utf8.decode q.body) = some d ∧ ModelField d value? ∧ FieldSays value? model?

/-- Whether something names no model: it gives no text, or the empty one. -/
def NamesNone (model? : Option String) : Prop := ∀ model ∈ model?, model = ""

/-- The model that a reply is to name: that of the body, else that of the path, else the default. -/
inductive Resolves (c : Configuration) : Option String → Option String → String → Prop
  | body {model : String} {pathModel? : Option String} (h : model ≠ "") : Resolves c (some model) pathModel? model
  | path {bodyModel? : Option String} {model : String} (hbody : NamesNone bodyModel?) (h : model ≠ "") :
    Resolves c bodyModel? (some model) model
  | default {bodyModel? pathModel? : Option String} (hbody : NamesNone bodyModel?) (hpath : NamesNone pathModel?) :
    Resolves c bodyModel? pathModel? c.streaming.model

/-- A body that gives the empty text for its model, where the path names one. -/
def Hides (bodyModel? pathModel? : Option String) : Prop := bodyModel? = some "" ∧ ¬ NamesNone pathModel?

/-! ## Paths -/

/-- The route of a path of five segments. -/
theorem ofPath?_completions {word : String} {segment : List Char} (hword : '/' ∉ word.toList)
    (hsegment : '/' ∉ segment) :
    Route.ofPath? ("/openai/" ++ word ++ "/" ++ String.ofList segment ++ "/chat/completions") =
      Route.ofSegments? ["openai", word, String.ofList segment, "chat", "completions"] := by
  have hlist : ("/openai/" ++ word ++ "/" ++ String.ofList segment ++ "/chat/completions").toList =
      '/' :: ("openai".toList ++ '/' :: (word.toList ++ '/' :: (segment ++ '/' ::
        ("chat".toList ++ '/' :: "completions".toList)))) := by
    simp
  have hpieces : Split.pieces '/' ("openai".toList ++ '/' :: (word.toList ++ '/' :: (segment ++ '/' ::
      ("chat".toList ++ '/' :: "completions".toList)))) =
      ["openai".toList, word.toList, segment, "chat".toList, "completions".toList] := by
    rw [Split.pieces_append (by decide), Split.pieces_append hword, Split.pieces_append hsegment,
      Split.pieces_append (by decide), Split.pieces_of_notMem (by decide)]
  rw [Route.ofPath?, hlist]
  simp only [hpieces, List.map_cons, List.map_nil, String.ofList_toList]

theorem endpoint_of_leadsTo {p : Provider} {pathModel? : Option String} {path : String}
    (h : LeadsTo p pathModel? path) : (Route.ofPath? path).bind Route.endpoint? = some (.chat p pathModel?) := by
  have hname : ∀ {segment : List Char} {model : String}, Percent.decode? segment = some model.toList →
      (Percent.decode? (String.ofList segment).toList).map
        (fun name => Endpoint.chat .openAi (some (String.ofList name))) = some (.chat .openAi (some model)) := by
    intro segment model hmodel
    rw [String.toList_ofList, hmodel, Option.map_some, String.ofList_toList]
  cases h with
  | openAi => decide +kernel
  | anthropic => decide +kernel
  | deployment hsegment hmodel =>
    have hroute := ofPath?_completions (by decide : '/' ∉ "deployments".toList) hsegment
    exact (congrArg (Option.bind · Route.endpoint?) hroute).trans (hname hmodel)
  | model hsegment hmodel =>
    have hroute := ofPath?_completions (by decide : '/' ∉ "models".toList) hsegment
    exact (congrArg (Option.bind · Route.endpoint?) hroute).trans (hname hmodel)

/-- A path with a route is made of its segments, which have no slashes. -/
theorem exists_segments {path : String} {r : Route} (h : Route.ofPath? path = some r) :
    ∃ segments, Route.ofSegments? segments = some r ∧
      path = String.ofList ('/' :: ['/'].intercalate (segments.map String.toList)) ∧
      ∀ segment ∈ segments, '/' ∉ segment.toList := by
  unfold Route.ofPath? at h
  split at h
  next cs hcs =>
    refine ⟨_, h, ?_, fun segment hsegment => ?_⟩
    · have hlists : ((Split.pieces '/' cs).map String.ofList).map String.toList = Split.pieces '/' cs := by
        rw [List.map_map]
        exact List.map_id'' (fun _ => String.toList_ofList) _
      rw [hlists, Split.intercalate_pieces, ← hcs, String.ofList_toList]
    · obtain ⟨piece, hpiece, rfl⟩ := List.mem_map.1 hsegment
      rw [String.toList_ofList]
      exact Split.notMem_of_mem_pieces hpiece
  next => cases h

theorem leadsTo_of_endpoint {p : Provider} {pathModel? : Option String} {path : String}
    (h : (Route.ofPath? path).bind Route.endpoint? = some (.chat p pathModel?)) : LeadsTo p pathModel? path := by
  obtain ⟨r, hr, hendpoint⟩ := Option.bind_eq_some_iff.1 h
  obtain ⟨segments, hsegments, rfl, hslash⟩ := exists_segments hr
  have hpath : ∀ word segment : String,
      String.ofList ('/' :: ['/'].intercalate (["openai", word, segment, "chat", "completions"].map String.toList)) =
        "/openai/" ++ word ++ "/" ++ String.ofList segment.toList ++ "/chat/completions" := by
    intro word segment
    rw [← String.toList_inj]
    simp [List.intercalate_cons_cons, List.intercalate_singleton]
  have hnamed : ∀ {segment : String}, (Percent.decode? segment.toList).map
      (fun name => Endpoint.chat .openAi (some (String.ofList name))) = some (.chat p pathModel?) →
      p = .openAi ∧ ∃ model : String, pathModel? = some model ∧
        Percent.decode? segment.toList = some model.toList := by
    intro segment h
    obtain ⟨name, hname, h⟩ := Option.map_eq_some_iff.1 h
    cases h
    exact ⟨rfl, _, rfl, by rw [hname, String.toList_ofList]⟩
  unfold Route.ofSegments? at hsegments
  split at hsegments
  case h_2 =>
    cases hsegments
    cases hendpoint
    exact .openAi
  case h_3 segment =>
    cases hsegments
    obtain ⟨rfl, model, rfl, hmodel⟩ := hnamed hendpoint
    rw [hpath "deployments" segment]
    exact .deployment (hslash segment (by simp)) hmodel
  case h_4 segment =>
    cases hsegments
    obtain ⟨rfl, model, rfl, hmodel⟩ := hnamed hendpoint
    rw [hpath "models" segment]
    exact .model (hslash segment (by simp)) hmodel
  case h_5 =>
    cases hsegments
    cases hendpoint
    exact .anthropic
  -- The other routes are no chats.
  all_goals
    repeat' split at hsegments
  all_goals
    cases hsegments
  all_goals
    simp [Route.endpoint?] at hendpoint

/-- The paths of chats are those that the router takes for one. -/
theorem leadsTo_iff {p : Provider} {pathModel? : Option String} {path : String} :
    LeadsTo p pathModel? path ↔ (Route.ofPath? path).bind Route.endpoint? = some (.chat p pathModel?) :=
  ⟨endpoint_of_leadsTo, leadsTo_of_endpoint⟩

theorem LeadsTo.ne_gemini {p : Provider} {pathModel? : Option String} {path : String} (h : LeadsTo p pathModel? path) :
    p ≠ .gemini := by
  cases h <;> decide

/-! ## Bodies -/

theorem Members.areNamed_of_mapM {ms : Members} {named : List (String × Document)}
    (h : (ms.mapM fun m => (Letter.string? m.1).map (·, m.2)) = some named) : ms.AreNamed := by
  induction ms generalizing named with
  | nil => exact fun _ hm => nomatch hm
  | cons m ms ih =>
    rw [List.mapM_cons] at h
    obtain ⟨first, hfirst, h⟩ := Option.bind_eq_some_iff.1 h
    obtain ⟨rest, hrest, -⟩ := Option.bind_eq_some_iff.1 h
    obtain ⟨text, htext, -⟩ := Option.map_eq_some_iff.1 hfirst
    exact List.forall_mem_cons.2 ⟨by rw [htext]; rfl, ih hrest⟩

theorem gives_of_named? {members : List (String × Document)} {name : String} {value? : Option Document}
    (h : Field.named? members name = some value?) :
    (members.filter fun m => m.1 == name).map Prod.snd = value?.toList := by
  unfold Field.named? at h
  generalize members.filter (fun m => m.1 == name) = found at h ⊢
  split at h <;> cases h <;> rfl

/-- The first of two fields of a record. -/
theorem modelField_of_record? {d : Document} {model? messages? : Option Document}
    (h : d.record? ["model", "messages"] = some [model?, messages?]) : ModelField d model? := by
  cases d with
  | object ms =>
    obtain ⟨named, hnamed, h⟩ := Option.bind_eq_some_iff.1 h
    rw [List.mapM_cons] at h
    obtain ⟨first, hfirst, h⟩ := Option.bind_eq_some_iff.1 h
    obtain ⟨rest, hrest, h⟩ := Option.bind_eq_some_iff.1 h
    obtain ⟨rfl, -⟩ := List.cons.inj (Option.some.inj h)
    obtain ⟨named', hnamed', hvalues⟩ := Members.exists_named (Members.areNamed_of_mapM hnamed)
    obtain rfl := Option.some.inj (hnamed.symm.trans hnamed')
    exact .object ((hvalues "model").symm.trans (gives_of_named? hfirst))
  | array ds =>
    have hfields : Field.inOrder? 2 ds = some [model?, messages?] := h
    unfold Field.inOrder? at hfields
    split at hfields
    · have hhead : model? = ds.head? := by
        have hlist := congrArg List.head? (Option.some.inj hfields)
        cases ds with
        | nil => exact (Option.some.inj hlist).symm
        | cons d ds => exact (Option.some.inj hlist).symm
      rw [hhead]
      exact .list ds
    · cases hfields
  | null | bool | number | string => cases h

theorem fieldSays_of_read {value? : Option Document} {text? : Option String}
    (h : Field.readOr none (Document.nullable? Document.string?) value? = some text?) : FieldSays value? text? := by
  cases value? with
  | none =>
    cases h
    exact .absent
  | some d =>
    cases d with
    | null =>
      cases h
      exact .null
    | string ls =>
      obtain ⟨text, htext, rfl⟩ := Option.map_eq_some_iff.1 h
      exact .text ⟨ls, rfl, htext⟩
    | bool | number | array | object => cases h

theorem exists_modelField {d : Document} {request : ChatRequest} (h : ChatRequest.ofDocument? d = some request) :
    ∃ value?, ModelField d value? ∧ FieldSays value? request.model? := by
  obtain ⟨fields, hfields, h⟩ := Option.bind_eq_some_iff.1 h
  split at h
  next model? messages? =>
    obtain ⟨model, hmodel, h⟩ := Option.bind_eq_some_iff.1 h
    obtain ⟨messages, -, h⟩ := Option.bind_eq_some_iff.1 h
    cases h
    exact ⟨model?, modelField_of_record? hfields, fieldSays_of_read hmodel⟩
  next => cases h

theorem ModelField.unique {d : Document} {value? value?' : Option Document} (h : ModelField d value?)
    (h' : ModelField d value?') : value? = value?' := by
  cases h with
  | object h =>
    cases h' with
    | object h' =>
      have hhead := congrArg List.head? (h.symm.trans h')
      rwa [Option.head?_toList, Option.head?_toList] at hhead
  | list ds =>
    cases h'
    rfl

theorem FieldSays.unique {value? : Option Document} {text? text?' : Option String} (h : FieldSays value? text?)
    (h' : FieldSays value? text?') : text? = text?' := by
  cases h with
  | absent =>
    cases h'
    rfl
  | null =>
    cases h' with
    | null => rfl
    | text h' =>
      obtain ⟨ls, hls, -⟩ := h'
      cases hls
  | text h =>
    obtain ⟨ls, rfl, htext⟩ := h
    cases h' with
    | text h' =>
      obtain ⟨ls', hls, htext'⟩ := h'
      cases hls
      rw [← htext, ← htext']

/-- A body gives one text for its model, or none. -/
theorem Request.GivesModel.unique {q : Request} {model? model?' : Option String} (h : q.GivesModel model?)
    (h' : q.GivesModel model?') : model? = model?' := by
  obtain ⟨d, value?, hd, hfield, htext⟩ := h
  obtain ⟨d', value?', hd', hfield', htext'⟩ := h'
  cases Option.some.inj (hd.symm.trans hd')
  cases hfield.unique hfield'
  exact htext.unique htext'

/-! ## Names of replies -/

variable {c : Configuration}

theorem resolves_resolvedModel {bodyModel? pathModel? : Option String} (h : ¬ Hides bodyModel? pathModel?) :
    Resolves c bodyModel? pathModel? (resolvedModel c (bodyModel?.or pathModel?)) := by
  have hnamed : ∀ model : String, model ≠ "" → resolvedModel c (some model) = model := by
    intro model hmodel
    rw [resolvedModel, Option.filter_some, if_pos (decide_eq_true hmodel)]
    rfl
  have hnone : ∀ model? : Option String, NamesNone model? → resolvedModel c model? = c.streaming.model := by
    intro model? hmodel
    cases model? with
    | none => rfl
    | some model =>
      rw [hmodel model rfl]
      rfl
  have hpath : NamesNone bodyModel? →
      Resolves c bodyModel? pathModel? (resolvedModel c pathModel?) := by
    intro hbody
    by_cases hpath : NamesNone pathModel?
    · rw [hnone pathModel? hpath]
      exact .default hbody hpath
    · cases pathModel? with
      | none => exact absurd (fun _ hm => nomatch hm) hpath
      | some model =>
        have hmodel : model ≠ "" := fun hempty => hpath fun m hm => by
          rw [← Option.some.inj hm]
          exact hempty
        rw [hnamed model hmodel]
        exact .path hbody hmodel
  cases bodyModel? with
  | none => exact hpath fun _ hm => nomatch hm
  | some model =>
    by_cases hmodel : model = ""
    · -- The path names no model that the empty text could hide.
      subst hmodel
      have hnothing : NamesNone pathModel? := Classical.byContradiction fun hnames => h ⟨rfl, hnames⟩
      exact .default (fun m hm => (Option.some.inj hm).symm) hnothing
    · rw [Option.some_or, hnamed model hmodel]
      exact .body hmodel

theorem resolvedModel_of_hides {bodyModel? pathModel? : Option String} (h : Hides bodyModel? pathModel?) :
    resolvedModel c (bodyModel?.or pathModel?) = c.streaming.model := by
  rw [h.1]
  rfl

theorem Resolves.unique {bodyModel? pathModel? : Option String} {model model' : String}
    (h : Resolves c bodyModel? pathModel? model) (h' : Resolves c bodyModel? pathModel? model') : model = model' := by
  cases h with
  | body h =>
    cases h' with
    | body h' => rfl
    | path hbody h' => exact absurd (hbody _ rfl) h
    | default hbody hpath => exact absurd (hbody _ rfl) h
  | path hbody h =>
    cases h' with
    | body h' => exact absurd (hbody _ rfl) h'
    | path hbody' h' => rfl
    | default hbody' hpath => exact absurd (hpath _ rfl) h
  | default hbody hpath =>
    cases h' with
    | body h' => exact absurd (hbody _ rfl) h'
    | path hbody' h' => exact absurd (hpath _ rfl) h'
    | default hbody' hpath' => rfl

/-! ## Accepted requests -/

section Answers

variable {s : State} {o : Occasion} {q : Request} {p : Provider} {pathModel? : Option String}

/-- A good answer to what is posted is that to an order, with keys or without. -/
theorem exists_orders (hpost : q.method = "POST") {e : Endpoint}
    (hpath : (Route.ofPath? q.target.path).bind Route.endpoint? = some e) {x : Response}
    (hx : (handle c s o q).2 = some x) (hstatus : x.status = 200) :
    ∃ p model? commands, q.Orders p model? commands ∧
      x.body = (replyRun c o p model? commands).collector.body := by
  have hkeyless : ∀ c' : Configuration, c'.keys = [] → (handle c' s o q).2 = some x →
      ∃ p model? commands, q.Orders p model? commands ∧
        x.body = (replyRun c' o p model? commands).collector.body := by
    intro c' hkeys hx
    have hposted : ∃ p model? commands, q.Orders p model? commands := by
      by_contra hnone
      have hother := handle_of_not_orders hkeys (fun p model? commands h => hnone ⟨p, model?, commands, h⟩) s o
      exact hother.2 hpost x hx hstatus
    obtain ⟨p, model?, commands, horders⟩ := hposted
    have hroom : c'.streaming.capacity.toNat ≤ Stream.Channel.largest := by
      by_contra hroom
      rw [handle_of_no_room hkeys horders (Nat.lt_of_not_le hroom)] at hx
      cases hx
    obtain ⟨x', hx', hstreams⟩ := streams_of_orders hkeys horders hroom s o
    cases Option.some.inj (hx'.symm.trans hx)
    exact ⟨p, model?, commands, horders, hstreams.body⟩
  by_cases hkeys : c.keys = []
  · exact hkeyless c hkeys hx
  by_cases hunlocks : q.Unlocks c
  · -- With an accepted key the reply is that of the server without keys, which has the same default.
    rw [handle_of_unlocks hunlocks] at hx
    exact hkeyless { c with keys := [] } rfl hx
  · obtain ⟨r, hr, he⟩ := Option.bind_eq_some_iff.1 hpath
    have hreaches : q.Reaches r := reaches_of_posted hpost hr (isPosted_of_endpoint? he)
    have hhealth : r ≠ .health := by
      rintro rfl
      cases he
    rw [handle_of_refused hkeys ⟨r, hreaches, hhealth⟩ hunlocks] at hx
    cases hx
    rw [status_finished] at hstatus
    cases hstatus

theorem model_of_orders (hpath : LeadsTo p pathModel? q.target.path) {p' : Provider} {model? : Option String}
    {commands : List Script.Command} (h : q.Orders p' model? commands) :
    p' = p ∧ ∃ bodyModel?, q.GivesModel bodyModel? ∧ model? = bodyModel?.or pathModel? := by
  obtain ⟨harrives, -, hinquiry, -, -⟩ := h
  obtain rfl := Option.some.inj (harrives.endpoint.symm.trans (leadsTo_iff.1 hpath))
  obtain ⟨request, hrequest, rfl⟩ := Option.map_eq_some_iff.1 hinquiry
  obtain ⟨d, hd, hrequest⟩ := Option.bind_eq_some_iff.1 hrequest
  obtain ⟨value?, hfield, htext⟩ := exists_modelField hrequest
  exact ⟨rfl, request.model?, ⟨d, value?, hd, hfield, htext⟩, rfl⟩

theorem echoes_replyRun (hp : p ≠ .gemini) (model? : Option String) (commands : List Script.Command) (model : String) :
    Echoes model p (replyRun c o p model? commands).collector.body ↔ model = resolvedModel c model? := by
  have hechoes : Echoes (resolvedModel c model?) p (replyRun c o p model? commands).collector.body :=
    Client.echoes_perform ⟨resolvedModel c model?, c.streaming.latency.toNat, o.clock.seconds,
      fun n => p.callId (o.callTag n), o.callTime, o.draw⟩ _ commands hp
  constructor
  · exact fun h => h.unique hechoes
  · rintro rfl
    exact hechoes

/-- What a stream names is what its body and its path are resolved to. -/
theorem exists_givesModel (hpost : q.method = "POST") (hpath : LeadsTo p pathModel? q.target.path) {x : Response}
    (hx : (handle c s o q).2 = some x) (hstatus : x.status = 200) :
    ∃ bodyModel?, q.GivesModel bodyModel? ∧ ∀ model,
      Echoes model p x.body ↔ model = resolvedModel c (bodyModel?.or pathModel?) := by
  obtain ⟨p', model?, commands, horders, hbody⟩ := exists_orders hpost (leadsTo_iff.1 hpath) hx hstatus
  obtain ⟨rfl, bodyModel?, hgives, rfl⟩ := model_of_orders hpath horders
  refine ⟨bodyModel?, hgives, fun model => ?_⟩
  rw [hbody]
  exact echoes_replyRun hpath.ne_gemini _ commands model

/-- The stream that answers a chat request names one model throughout: that of the body, else that of the path,
else the default, unless the body hides the model of the path; then it names the default. -/
theorem echoes_handle (hpost : q.method = "POST") (hpath : LeadsTo p pathModel? q.target.path)
    {x : Response} (hx : (handle c s o q).2 = some x) (hstatus : x.status = 200) :
    ∃ bodyModel?, (∀ model?, q.GivesModel model? ↔ model? = bodyModel?) ∧
      (¬ Hides bodyModel? pathModel? →
        ∀ model, Echoes model p x.body ↔ Resolves c bodyModel? pathModel? model) ∧
      (Hides bodyModel? pathModel? → ∀ model, Echoes model p x.body ↔ model = c.streaming.model) := by
  obtain ⟨bodyModel?, hgives, hechoes⟩ := exists_givesModel hpost hpath hx hstatus
  refine ⟨bodyModel?, fun model? => ⟨fun h => h.unique hgives, ?_⟩, fun hshows model => ?_, fun hhides model => ?_⟩
  · rintro rfl
    exact hgives
  · rw [hechoes]
    constructor
    · rintro rfl
      exact resolves_resolvedModel hshows
    · exact fun h => h.unique (resolves_resolvedModel hshows)
  · rw [hechoes, resolvedModel_of_hides hhides]

end Answers

theorem ofSource?_decode_write (v : Json.Value) :
    Document.ofSource? (Utf8.decode (Utf8.encode v.write)) = some v.document := by
  rw [Utf8.decode_encode]
  exact Document.ofSource?_of_spells v.spells_write

theorem givesModel_of_document {q : Request} {ms : List (String × Json.Value)} {value? : Option Document}
    {model? : Option String} (hbody : q.body = Utf8.encode (Json.Value.object ms).write)
    (hvalue : Members.Gives (Json.memberDocuments ms) "model" value?) (htext : FieldSays value? model?) :
    q.GivesModel model? := by
  refine ⟨_, value?, ?_, .object hvalue, htext⟩
  rw [hbody]
  exact ofSource?_decode_write (.object ms)

/-- A deployment in the path, written with escapes, after a body that gives no model. -/
theorem echoes_handle_deployment :
    let o : Occasion := ⟨⟨0, ""⟩, fun _ => 0, "", "", fun _ => "", fun _ => "", ""⟩
    let body : Json.Value := .object [("messages", .array [askingMessage "SAY \"x\""])]
    let q : Request := ⟨"POST", ⟨"/openai/deployments/d%C3%A9p/chat/completions", none⟩, [], Utf8.encode body.write⟩
    LeadsTo .openAi (some "dép") q.target.path ∧
      ∃ x, (handle .default .initial o q).2 = some x ∧ x.status = 200 ∧ Echoes "dép" .openAi x.body := by
  intro o body q
  have hpath : LeadsTo .openAi (some "dép") q.target.path :=
    @LeadsTo.deployment "d%C3%A9p".toList "dép" (by decide) (by decide +kernel)
  have hanswered : (handle .default .initial o q).2.map Response.status = some 200 := by decide +kernel
  obtain ⟨x, hx, hstatus⟩ := Option.map_eq_some_iff.1 hanswered
  have hnone : Members.Gives (Json.memberDocuments [("messages", .array [askingMessage "SAY \"x\""])]) "model" none :=
    Members.valuesOf_document _ _
  have hgives : q.GivesModel none := givesModel_of_document rfl hnone .absent
  obtain ⟨bodyModel?, hbody, hshown, -⟩ := echoes_handle rfl hpath hx hstatus
  obtain rfl := (hbody none).1 hgives
  have hshows : ¬ Hides none (some "dép") := fun h => nomatch h.1
  exact ⟨hpath, x, hx, hstatus, (hshown hshows "dép").2 (.path (fun _ hm => nomatch hm) (by decide))⟩

/-- An empty text for the model in the body hides the deployment. -/
theorem echoes_default_of_empty :
    let o : Occasion := ⟨⟨0, ""⟩, fun _ => 0, "", "", fun _ => "", fun _ => "", ""⟩
    let body : Json.Value := .object [("model", .string ""), ("messages", .array [askingMessage "SAY \"x\""])]
    let q : Request := ⟨"POST", ⟨"/openai/deployments/dep/chat/completions", none⟩, [], Utf8.encode body.write⟩
    LeadsTo .openAi (some "dep") q.target.path ∧ q.GivesModel (some "") ∧
      Resolves .default (some "") (some "dep") "dep" ∧
      ∃ x, (handle .default .initial o q).2 = some x ∧ x.status = 200 ∧ ¬ Echoes "dep" .openAi x.body := by
  intro o body q
  have hpath : LeadsTo .openAi (some "dep") q.target.path :=
    @LeadsTo.deployment "dep".toList "dep" (by decide) (by decide +kernel)
  have hgives : q.GivesModel (some "") :=
    givesModel_of_document rfl (Members.gives_document rfl) (.text (says_document ""))
  have hanswered : (handle .default .initial o q).2.map Response.status = some 200 := by decide +kernel
  obtain ⟨x, hx, hstatus⟩ := Option.map_eq_some_iff.1 hanswered
  refine ⟨hpath, hgives, .path (fun m hm => (Option.some.inj hm).symm) (by decide), x, hx, hstatus, fun h => ?_⟩
  obtain ⟨bodyModel?, hbody, hechoes⟩ := exists_givesModel rfl hpath hx hstatus
  obtain rfl := hgives.unique hbody
  exact absurd ((hechoes "dep").1 h) (by decide)

end ScriptedModel.Http
