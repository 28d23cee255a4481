/-
Messages: what frames carry. A message is a JSON value, as the data of an event or as a line of its
own, or says that the response is over; of each message there is one frame.

Main statement: however many frames of a response are delivered, their readers get one message for
each, and none that a text could have put there: server-sent events split where frames end, lines
where documents end, and the JSON of each message spells its value and no other.
-/
import ScriptedModel.Proofs.Client.Anthropic
import ScriptedModel.Proofs.Client.Gemini
import ScriptedModel.Proofs.Client.OpenAi
import ScriptedModel.Proofs.Json.Denotation
import ScriptedModel.Proofs.Stream.Interruption
import ScriptedModel.Proofs.Text.Utf8

namespace ScriptedModel.Client

open Json (Value)
open Script (Command)
open ScriptedModel.Stream

/-- What a frame carries. -/
inductive Message
  | event (name? : Option String) (value : Value)
  | line (value : Value) (isLast : Bool)
  | done
  deriving Repr

namespace Message

/-- The value that a message carries, if it is not the sign that the response is over. -/
def value? : Message → Option Value
  | .event _ v => some v
  | .line v _ => some v
  | .done => none

/-- What a message carries, as text. -/
def data : Message → String
  | .event _ v => v.compact
  | .line v _ => v.compact
  | .done => OpenAi.doneData

/-- The frame that a message is sent in. -/
def frame : Message → String
  | .event none v => "data: " ++ v.compact ++ "\n\n"
  | .event (some name) v => "event: " ++ name ++ "\ndata: " ++ v.compact ++ "\n\n"
  | .line v isLast => v.compact ++ (if isLast then "" else "\n")
  | .done => "data: " ++ OpenAi.doneData ++ "\n\n"

/-- The event that a message is read as, where messages are events. -/
def received : Message → EventStream.Event
  | .event name? v => ⟨name?.getD "message", v.compact⟩
  | m => ⟨"message", m.data⟩

/-- The message of a chunk, or the sign that the response is over. -/
def ofOpenAi : Stream.OpenAi.Event → Message
  | .chunk c => .event none c.toJson
  | .done => .done

theorem frame_ofOpenAi (e : Stream.OpenAi.Event) : (ofOpenAi e).frame = e.frame := by
  cases e <;> rfl

/-- The message of an event, which goes by its name. -/
def ofAnthropic (e : Stream.Anthropic.Event) : Message := .event (some e.name) e.toJson

/-- The message of a document, on a line that ends unless it is the last. -/
def ofGemini (d : Stream.Gemini.Document) : Message := .line d.toJson d.terminal

end Message

/-- The messages of a response that is delivered to its end. -/
def messages (p : Provider) (x : Context) (replyId : String) (cs : List Command) : List Message :=
  let us := units x (spoken cs)
  match p with
  | .openAi =>
    (OpenAi.unitEvents (Stream.OpenAi.State.initial replyId x.created x.model) us ++
      [Stream.OpenAi.Event.done]).map .ofOpenAi
  | .anthropic =>
    let run := (Stream.Anthropic.State.initial replyId x.model).steps us
    (run.2 ++ run.1.closeEvents).map .ofAnthropic
  | .gemini => us.map fun u => .ofGemini (Gemini.document u)

theorem frames_schedule_eq_messages (p : Provider) (x : Context) (replyId : String) (cs : List Command) :
    (p.schedule x replyId cs).filterMap Action.frame? = (messages p x replyId cs).map Message.frame := by
  cases p with
  | openAi =>
    have hframe : Message.frame ∘ Message.ofOpenAi = Stream.OpenAi.Event.frame := funext Message.frame_ofOpenAi
    rw [Provider.schedule, ← schedule_spoken, frames_schedule x _ (spoken_ne_nil cs), OpenAi.framesOf_eq, messages,
      List.map_map, hframe]
  | anthropic =>
    have hframe : Message.frame ∘ Message.ofAnthropic = Stream.Anthropic.Event.frame := rfl
    rw [Provider.schedule, ← schedule_spoken, frames_schedule x _ (spoken_ne_nil cs),
      Stream.Anthropic.State.framesOf_eq, messages, List.map_map, hframe]
  | gemini =>
    rw [Provider.schedule, ← schedule_spoken, frames_schedule x _ (spoken_ne_nil cs), Gemini.framesOf_eq, messages,
      List.map_map]
    rfl

/-! ## The last message -/

section Last

variable (x : Context) (replyId : String) (cs : List Command)

theorem messages_openAi : ∃ chunks : List Stream.OpenAi.Chunk,
    messages .openAi x replyId cs = (chunks.map fun c => Message.event none c.toJson) ++ [.done] := by
  have hdone := OpenAi.done_notMem_unitEvents (Stream.OpenAi.State.initial replyId x.created x.model)
    (units x (spoken cs))
  rw [messages, List.map_append]
  generalize OpenAi.unitEvents _ _ = es at hdone ⊢
  induction es with
  | nil => exact ⟨[], rfl⟩
  | cons e es ih =>
    obtain ⟨chunks, hchunks⟩ := ih fun h => hdone (List.mem_cons_of_mem e h)
    cases e with
    | done => exact absurd List.mem_cons_self hdone
    | chunk c => exact ⟨c :: chunks, congrArg (Message.event none c.toJson :: ·) hchunks⟩

theorem messageStop_notMem_blockEvents (index : Nat) (bs : List Stream.Anthropic.FilledBlock) :
    .messageStop ∉ Stream.Anthropic.blockEvents index bs := by
  induction bs generalizing index with
  | nil => exact List.not_mem_nil
  | cons b bs ih => simp [Stream.Anthropic.blockEvents, Stream.Anthropic.FilledBlock.events, ih]

theorem messages_messageEvents : ∃ reason tokens, messages .anthropic x replyId cs =
    (Stream.Anthropic.messageEvents replyId x.model (Stream.Anthropic.unitBlocks (units x (spoken cs))) reason
      tokens).map .ofAnthropic :=
  ⟨_, _, congrArg _ (Stream.Anthropic.events_initial replyId x.model (units_ne_nil x (spoken_ne_nil cs)))⟩

theorem messages_anthropic : ∃ es : List Stream.Anthropic.Event,
    messages .anthropic x replyId cs = es.map .ofAnthropic ++ [.ofAnthropic .messageStop] ∧ .messageStop ∉ es := by
  obtain ⟨reason, tokens, hevents⟩ := messages_messageEvents x replyId cs
  refine ⟨.messageStart replyId x.model ::
    (Stream.Anthropic.blockEvents 0 (Stream.Anthropic.unitBlocks (units x (spoken cs))) ++ [.messageDelta reason tokens]),
    ?_, ?_⟩
  · rw [hevents]
    simp [Stream.Anthropic.messageEvents]
  · simp [messageStop_notMem_blockEvents]

/-- The last unit is terminal, and no other is. -/
theorem exists_place_concat (callId : Nat → String) (first : Bool) (calls : Nat) {ms : List Matter} (hms : ms ≠ []) :
    ∃ us u, place callId first calls ms = us ++ [u] ∧ (∀ v ∈ us, v.terminal = false) ∧ u.terminal = true := by
  fun_induction place callId first calls ms with
  | case1 => exact absurd rfl hms
  | case2 first calls chunk rest ih =>
    cases rest with
    | nil => exact ⟨[], _, rfl, by simp, rfl⟩
    | cons m rest =>
      obtain ⟨us, u, hus, hopen, hlast⟩ := ih (List.cons_ne_nil m rest)
      exact ⟨_ :: us, u, by rw [hus]; rfl, List.forall_mem_cons.2 ⟨rfl, hopen⟩, hlast⟩
  | case3 first calls toolName arguments size rest ih =>
    cases rest with
    | nil => exact ⟨[], _, rfl, by simp, rfl⟩
    | cons m rest =>
      obtain ⟨us, u, hus, hopen, hlast⟩ := ih (List.cons_ne_nil m rest)
      exact ⟨_ :: us, u, by rw [hus]; rfl, List.forall_mem_cons.2 ⟨rfl, hopen⟩, hlast⟩

theorem messages_gemini : ∃ (ds : List Stream.Gemini.Document) (d : Stream.Gemini.Document),
    messages .gemini x replyId cs = ds.map .ofGemini ++ [.ofGemini d] ∧ (∀ d ∈ ds, d.terminal = false) ∧
      d.terminal = true := by
  have hterminal : ∀ u : OutputUnit, (Gemini.document u).terminal = u.terminal := by
    rintro (u | u) <;> rfl
  obtain ⟨us, u, hus, hopen, hlast⟩ := exists_place_concat x.callId true 0 (flatMap_matter_ne_nil (spoken_ne_nil cs))
  refine ⟨us.map Gemini.document, Gemini.document u, ?_, ?_, (hterminal u).trans hlast⟩
  · simp [messages, units, hus]
  · intro d hd
    obtain ⟨v, hv, rfl⟩ := List.mem_map.1 hd
    exact (hterminal v).trans (hopen v hv)

end Last

/-! ## Reading messages -/

namespace Message

/-- A message that is an event; its name, if it has one, is a line. -/
def IsEvent : Message → Prop
  | .event name? _ => ∀ name ∈ name?, EventStream.IsLine name.toList ∧ name ≠ ""
  | .line _ _ => False
  | .done => True

theorem isEvent_ofOpenAi (e : Stream.OpenAi.Event) : (ofOpenAi e).IsEvent := by
  cases e with
  | chunk c => exact fun name hname => nomatch hname
  | done => trivial

theorem isEvent_ofAnthropic (e : Stream.Anthropic.Event) : (ofAnthropic e).IsEvent := by
  rintro name ⟨⟩
  cases e <;> rw [Stream.Anthropic.Event.name] <;> decide

theorem events_frame {m : Message} (h : m.IsEvent) (cs : List Char) :
    EventStream.events .none (EventStream.lines (m.frame.toList ++ cs)) =
      m.received :: EventStream.events .none (EventStream.lines cs) := by
  rcases m with ⟨_ | name, v⟩ | ⟨v, isLast⟩ | _
  · exact EventStream.events_message (EventStream.isLine_compact v) cs
  · obtain ⟨hname, hne⟩ := h name rfl
    exact EventStream.events_named hname hne (EventStream.isLine_compact v) cs
  · exact h.elim
  · exact EventStream.events_message (by decide) cs

theorem data_received (m : Message) : m.received.data = m.data := by
  cases m <;> rfl

/-- Documents that are followed by line feeds are the first lines of a text. -/
theorem pieces_lines {ds : List Stream.Gemini.Document} (h : ∀ d ∈ ds, d.terminal = false) (cs : List Char) :
    Split.pieces '\n' ((String.join ((ds.map ofGemini).map frame)).toList ++ cs) =
      (ds.map ofGemini).map (·.data.toList) ++ Split.pieces '\n' cs := by
  induction ds with
  | nil => rfl
  | cons d ds ih =>
    have hframe : (ofGemini d).frame.toList = d.toJson.write ++ ['\n'] := by
      show (d.toJson.compact ++ (if d.terminal then "" else "\n")).toList = _
      rw [h d List.mem_cons_self, String.toList_append, Value.compact, String.toList_ofList]
      rfl
    have hdata : (ofGemini d).data.toList = d.toJson.write := String.toList_ofList
    rw [List.map_cons, List.map_cons, String.join_cons, String.toList_append, hframe, List.append_assoc, List.append_assoc,
      List.cons_append, List.nil_append, Split.pieces_append (Gemini.lineFeed_notMem_write d.toJson),
      ih fun e he => h e (List.mem_cons_of_mem d he), List.map_cons, hdata]
    rfl

end Message

theorem isEvent_of_mem_messages {p : Provider} (hp : p ≠ .gemini) {x : Context} {replyId : String} {cs : List Command}
    {m : Message} (hm : m ∈ messages p x replyId cs) : m.IsEvent := by
  cases p with
  | openAi =>
    obtain ⟨e, -, rfl⟩ := List.mem_map.1 hm
    exact Message.isEvent_ofOpenAi e
  | anthropic =>
    obtain ⟨e, -, rfl⟩ := List.mem_map.1 hm
    exact Message.isEvent_ofAnthropic e
  | gemini => exact absurd rfl hp

theorem compact_object_ne_doneData (m : String × Value) (ms : List (String × Value)) :
    (Value.object (m :: ms)).compact ≠ OpenAi.doneData := by
  intro h
  have hlist := congrArg String.toList h
  rw [Value.compact, String.toList_ofList] at hlist
  -- An object begins with a brace, the sign of the end with a bracket.
  have hhead : some '{' = OpenAi.doneData.toList.head? := congrArg List.head? hlist
  exact absurd hhead (by decide)

/-- What holds of the last of a list alone tells where the list ends. -/
theorem iff_last_of_getElem? {α : Type} {P : α → Prop} {init : List α} {last : α} (hinit : ∀ a ∈ init, ¬ P a)
    (hlast : P last) {i : Nat} {a : α} (h : (init ++ [last])[i]? = some a) :
    P a ↔ i + 1 = (init ++ [last]).length := by
  rw [List.length_append, List.length_singleton]
  by_cases hi : i < init.length
  · rw [List.getElem?_append_left hi] at h
    exact iff_of_false (hinit a (List.mem_of_getElem? h)) (by omega)
  · rw [List.getElem?_append_right (by omega), List.getElem?_singleton] at h
    split at h
    · cases h
      exact iff_of_true hlast (by omega)
    · cases h

/-- The sign that a response is over is the last message of the OpenAI format and nothing else. -/
theorem data_eq_doneData_iff {p : Provider} {x : Context} {replyId : String} {cs : List Command} {i : Nat} {m : Message}
    (hm : (messages p x replyId cs)[i]? = some m) :
    m.data = OpenAi.doneData ↔ p = .openAi ∧ i + 1 = (messages p x replyId cs).length := by
  have hmem := List.mem_of_getElem? hm
  cases p with
  | openAi =>
    obtain ⟨chunks, hchunks⟩ := messages_openAi x replyId cs
    rw [hchunks] at hm ⊢
    rw [eq_self_iff_true, true_and]
    refine iff_last_of_getElem? (P := fun m => m.data = OpenAi.doneData) (fun m hm => ?_) rfl hm
    obtain ⟨c, -, rfl⟩ := List.mem_map.1 hm
    exact OpenAi.compact_ne_doneData c
  | anthropic =>
    obtain ⟨e, -, rfl⟩ := List.mem_map.1 hmem
    have hne : (Message.ofAnthropic e).data ≠ OpenAi.doneData := by
      cases e <;> exact compact_object_ne_doneData _ _
    simp [hne]
  | gemini =>
    obtain ⟨u, -, rfl⟩ := List.mem_map.1 hmem
    have hne : (Message.ofGemini (Gemini.document u)).data ≠ OpenAi.doneData := compact_object_ne_doneData _ _
    simp [hne]

/-! ## Delivered messages -/

theorem frames_delivered (p : Provider) (x : Context) (replyId : String) (cs : List Command) (limit : Option Nat) :
    let run := perform (Collector.empty limit) (p.schedule x replyId cs)
    run.collector.frames.toList = ((messages p x replyId cs).take run.taken).map Message.frame ∧
      run.taken ≤ (messages p x replyId cs).length := by
  intro run
  have h := frames_perform_eq_take limit (p.pausesLead_schedule x replyId cs)
  rw [frames_schedule_eq_messages, List.length_map, ← List.map_take] at h
  exact h

theorem read_take {p : Provider} (hp : p ≠ .gemini) (x : Context) (replyId : String) (cs : List Command) (k : Nat) :
    EventStream.read (String.join (((messages p x replyId cs).take k).map Message.frame)) =
      ((messages p x replyId cs).take k).map Message.received :=
  EventStream.read_join Message.frame Message.received _ fun _ hm =>
    Message.events_frame (isEvent_of_mem_messages hp (List.mem_of_mem_take hm))

/-- Documents are lines; only the last is not followed by a line feed. -/
theorem pieces_take (x : Context) (replyId : String) (cs : List Command) {k : Nat}
    (hk : k ≤ (messages .gemini x replyId cs).length) :
    Split.pieces '\n' (String.join (((messages .gemini x replyId cs).take k).map Message.frame)).toList =
      ((messages .gemini x replyId cs).take k).map (·.data.toList) ++
        (if k = (messages .gemini x replyId cs).length then [] else [[]]) := by
  obtain ⟨ds, d, hmessages, hopen, hlast⟩ := messages_gemini x replyId cs
  rw [hmessages] at hk ⊢
  rw [List.length_append, List.length_map, List.length_singleton] at hk ⊢
  by_cases hend : k = ds.length + 1
  · have hframe : (Message.ofGemini d).frame.toList = d.toJson.write := by
      show (d.toJson.compact ++ (if d.terminal then "" else "\n")).toList = _
      rw [hlast, String.toList_append, Value.compact, String.toList_ofList]
      exact List.append_nil _
    have hdata : (Message.ofGemini d).data.toList = d.toJson.write := String.toList_ofList
    rw [if_pos hend, List.take_of_length_le (by simp [hend]), List.map_append, String.join_append, String.toList_append,
      List.append_nil, Message.pieces_lines hopen, List.map_append]
    simp only [List.map_cons, List.map_nil, String.join_cons, String.join_nil, String.append_empty, hframe, hdata,
      Split.pieces_of_notMem (Gemini.lineFeed_notMem_write d.toJson)]
  · have hpieces := Message.pieces_lines (fun e he => hopen e (List.mem_of_mem_take (i := k) he)) []
    rw [List.append_nil, List.map_take] at hpieces
    rw [if_neg hend, List.take_append_of_le_length (by rw [List.length_map]; omega), hpieces]
    rfl

/-- However many frames of a response a collector takes, its readers get the messages that these
carry, one for each. As server-sent events they come under their names, and the sign that the
response is over comes with the last of all messages alone; as lines they all end in a line feed but
the last of all. What a message carries spells its value and no other document, and that stands for
the value. -/
theorem read_delivered (p : Provider) (x : Context) (replyId : String) (cs : List Command) (limit : Option Nat) :
    let run := perform (Collector.empty limit) (p.schedule x replyId cs)
    let all := messages p x replyId cs
    let delivered := all.take run.taken
    run.collector.frames.toList = delivered.map Message.frame ∧
    Utf8.decode (Utf8.encode run.collector.body.toList) = run.collector.body.toList.map some ∧
    (p ≠ .gemini →
      EventStream.read run.collector.body = delivered.map Message.received ∧
      ∀ i e, (EventStream.read run.collector.body)[i]? = some e →
        (e.data = "[DONE]" ↔ p = .openAi ∧ i + 1 = all.length)) ∧
    (p = .gemini →
      Split.pieces '\n' run.collector.body.toList =
        delivered.map (·.data.toList) ++ (if run.taken = all.length then [] else [[]])) ∧
    ∀ m ∈ delivered, ∀ v, m.value? = some v →
      (∀ d, Json.Spells d m.data.toList ↔ d = v.document) ∧ Json.Denotes v.document v := by
  intro run all delivered
  obtain ⟨hframes, htaken⟩ := frames_delivered p x replyId cs limit
  have hbody : run.collector.body = String.join (delivered.map Message.frame) := congrArg String.join hframes
  refine ⟨hframes, Utf8.decode_encode _, fun hp => ?_, fun hp => ?_, fun m hm v hv => ?_⟩
  · have hread : EventStream.read run.collector.body = delivered.map Message.received := by
      rw [hbody]
      exact read_take hp x replyId cs run.taken
    refine ⟨hread, fun i e he => ?_⟩
    rw [hread, List.getElem?_map] at he
    obtain ⟨m, hm, rfl⟩ := Option.map_eq_some_iff.1 he
    have hall : all[i]? = some m := by
      rw [List.getElem?_take] at hm
      split at hm
      · exact hm
      · cases hm
    rw [Message.data_received]
    exact data_eq_doneData_iff hall
  · subst hp
    rw [hbody]
    exact pieces_take x replyId cs htaken
  · have hdata : m.data = v.compact := by
      cases m <;> cases hv <;> rfl
    rw [hdata]
    exact ⟨v.spells_compact_iff, v.denotes_document⟩

end ScriptedModel.Client
