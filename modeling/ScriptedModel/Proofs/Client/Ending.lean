/-
The end of a response as its client sees it: an event of its own, or a document that gives a reason to
finish.

Main statement: what a client gets of a response that is cut short is the beginning of the whole
response, so it sees the end only after all that comes before, and once.
-/
import ScriptedModel.Proofs.Client.Message

namespace ScriptedModel.Client

open Json (Value)
open Script (Command)
open ScriptedModel.Stream

/-- The reason to finish that the first candidate of a document gives. -/
def finishReason? (d : Json.Document) : Option String := do
  let candidate ← (← d.member? "candidates").first?
  (← candidate.member? "finishReason").string?

/-- Whether a frame tells a client of a provider that the response is over. -/
def EndsResponse (p : Provider) (frame : String) : Prop :=
  match p with
  | .openAi => (EventStream.read frame).map EventStream.Event.data = ["[DONE]"]
  | .anthropic => (EventStream.read frame).map EventStream.Event.name = ["message_stop"]
  | .gemini => (Json.Document.ofSource? (Json.sourceOf frame)).bind finishReason? = some "STOP"

namespace Message

theorem read_frame {m : Message} (h : m.IsEvent) : EventStream.read m.frame = [m.received] := by
  have hread := EventStream.read_join frame received [m] fun m' hm => by
    rw [List.mem_singleton.1 hm]
    exact events_frame h
  rw [List.map_singleton, List.map_singleton, String.join_cons, String.join_nil, String.append_empty] at hread
  exact hread

/-- A document is read from its line, with the line feed or without. -/
theorem ofSource?_frame (d : Stream.Gemini.Document) :
    Json.Document.ofSource? (Json.sourceOf (ofGemini d).frame) = some d.toJson.document := by
  have hblanks : Json.Blanks (if d.terminal then "" else "\n").toList := by
    cases d.terminal
    · intro c hc
      exact .inr (.inr (.inl (List.mem_singleton.1 hc)))
    · exact Json.blanks_nil
  have hspells := Json.Derives.blanks Json.blanks_nil d.toJson.spells_write hblanks
  have hframe : (ofGemini d).frame.toList = [] ++ (d.toJson.write ++ (if d.terminal then "" else "\n").toList) := by
    show (d.toJson.compact ++ (if d.terminal then "" else "\n")).toList = _
    rw [String.toList_append, Value.compact, String.toList_ofList]
    rfl
  rw [Json.sourceOf, hframe]
  exact Json.Document.ofSource?_of_spells hspells

theorem finishReason?_document (d : Stream.Gemini.Document) :
    finishReason? d.toJson.document = if d.terminal then some "STOP" else none := by
  have hcandidate : finishReason? d.toJson.document =
      (d.candidate.document.member? "finishReason").bind Json.Document.string? := rfl
  rw [hcandidate, Json.Document.member?_document, Stream.Gemini.Document.candidate]
  cases d.terminal with
  | true => exact Json.Document.string?_document "STOP"
  | false => rfl

end Message

theorem endsResponse_iff {p : Provider} {x : Context} {replyId : String} {cs : List Command} {i : Nat} {m : Message}
    (hm : (messages p x replyId cs)[i]? = some m) :
    EndsResponse p m.frame ↔ i + 1 = (messages p x replyId cs).length := by
  have hmem := List.mem_of_getElem? hm
  cases p with
  | openAi =>
    have hdone := data_eq_doneData_iff hm
    rw [EndsResponse, Message.read_frame (isEvent_of_mem_messages (by simp) hmem), List.map_singleton,
      Message.data_received]
    simpa [OpenAi.doneData] using hdone
  | anthropic =>
    obtain ⟨es, hes, hstop⟩ := messages_anthropic x replyId cs
    rw [EndsResponse, Message.read_frame (isEvent_of_mem_messages (by simp) hmem)]
    rw [hes] at hm ⊢
    refine iff_last_of_getElem? (P := fun m => [m.received].map EventStream.Event.name = ["message_stop"]) ?_ rfl hm
    intro m hm
    obtain ⟨e, he, rfl⟩ := List.mem_map.1 hm
    cases e with
    | messageStop => exact absurd he hstop
    | _ => simp [Message.ofAnthropic, Message.received, Stream.Anthropic.Event.name]
  | gemini =>
    obtain ⟨ds, d, hds, hopen, hlast⟩ := messages_gemini x replyId cs
    rw [hds] at hm ⊢
    refine iff_last_of_getElem? (P := fun m : Message => EndsResponse .gemini m.frame) (fun m hm => ?_) ?_ hm
    · obtain ⟨d, hd, rfl⟩ := List.mem_map.1 hm
      rw [EndsResponse, Message.ofSource?_frame, Option.bind_some, Message.finishReason?_document, hopen d hd]
      simp
    · rw [EndsResponse, Message.ofSource?_frame, Option.bind_some, Message.finishReason?_document, hlast]
      rfl

/-- A collector that closes after n frames of a response gets the first n frames of the whole response.
If there are no more the response is complete, and else the client is gone after exactly n. Of the frames that
it gets the last of the whole response, and no other, tells that the response is over. -/
theorem perform_interrupted (p : Provider) (x : Context) (replyId : String) (cs : List Command) (n : Nat) :
    let whole := perform (Collector.empty none) (p.schedule x replyId cs)
    let cut := perform (Collector.empty (some n)) (p.schedule x replyId cs)
    let sent := whole.collector.frames.toList
    (whole.outcome = .completed ∧ whole.taken = sent.length ∧ 0 < sent.length) ∧
    cut.collector.frames.toList = sent.take (min n sent.length) ∧
    (sent.length ≤ n → cut.outcome = .completed ∧ cut.taken = sent.length) ∧
    (n < sent.length → cut.outcome = .disconnected ∧ cut.taken = n) ∧
    ∀ i frame, cut.collector.frames.toList[i]? = some frame → (EndsResponse p frame ↔ i + 1 = sent.length) := by
  intro whole cut sent
  have hwhole := Collector.perform_unlimited (p.schedule x replyId cs)
  have hsent : sent = (messages p x replyId cs).map Message.frame := by
    rw [← frames_schedule_eq_messages]
    exact Collector.frames_perform_unlimited _
  have hcut := perform_cutAt n (p.pausesLead_schedule x replyId cs)
  obtain ⟨hframes, htaken, -, houtcome⟩ := hcut
  rw [frames_schedule_eq_messages, ← hsent] at hframes htaken houtcome
  refine ⟨⟨hwhole.outcome, ?_, ?_⟩, ?_, fun hn => ?_, fun hn => ?_, fun i frame hframe => ?_⟩
  · rw [hwhole.taken, frames_schedule_eq_messages, ← hsent]
  · rw [hsent, List.length_map]
    cases p with
    | openAi => obtain ⟨_, h⟩ := messages_openAi x replyId cs; simp [h]
    | anthropic => obtain ⟨_, h, -⟩ := messages_anthropic x replyId cs; simp [h]
    | gemini => obtain ⟨_, _, h, -⟩ := messages_gemini x replyId cs; simp [h]
  · rw [hframes, ← List.take_eq_take_min]
  · exact ⟨by rw [houtcome, if_pos hn], by rw [htaken]; omega⟩
  · exact ⟨by rw [houtcome, if_neg (by omega)], by rw [htaken]; omega⟩
  · rw [hframes, List.getElem?_take] at hframe
    split at hframe
    · rw [hsent, List.getElem?_map] at hframe
      obtain ⟨m, hm, rfl⟩ := Option.map_eq_some_iff.1 hframe
      rw [hsent, List.length_map]
      exact endsResponse_iff hm
    · cases hframe

end ScriptedModel.Client
