/-
The echo: what a client gets of a reply is what the script of its request puts out.

Main statement: whatever a script says and calls, however it is printed, and however the request that
asks for it is spelled, a server without keys that has a channel answers with a stream from which a
client of the provider gets exactly these texts and calls, in order.
-/
import ScriptedModel.Proofs.Client.Anthropic
import ScriptedModel.Proofs.Client.Gemini
import ScriptedModel.Proofs.Client.OpenAi
import ScriptedModel.Proofs.Http.Asking
import ScriptedModel.Proofs.Script.Printing

namespace ScriptedModel.Http

open Client (Transcript)
open Script (Command Directive Prints Statement)
open ScriptedModel.Stream (Action Collector Context Framer Provider Sink perform schedule units)

/-! ## Clients of providers -/

/-- The arguments of a call as a client has them: a text, or the document that they make. -/
inductive Arguments
  | raw (text : String)
  | structured (document : Json.Document)
  deriving Repr

/-- How the arguments of a call come to a client. -/
def Arguments.ofCall (p : Provider) (text : String) : Arguments :=
  match p with
  | .openAi | .anthropic => .raw text
  | .gemini => .structured (Client.Gemini.structured text)

/-- What a client of a provider gets of the body of a reply. -/
def transcript? (p : Provider) (body : String) : Option (Transcript Arguments) :=
  match p with
  | .openAi => (Client.OpenAi.transcript? body).map (Transcript.map .raw)
  | .anthropic => (Client.Anthropic.transcript? body).map (Transcript.map .raw)
  | .gemini => (Client.Gemini.transcript? body).map (Transcript.map .structured)

/-! ## Replies -/

/-- The body of a reply that is read to its end is all its frames. -/
theorem body_perform (actions : List Action) :
    (perform (Collector.empty none) actions).collector.body = String.join (actions.filterMap Action.frame?) := by
  have hopen : Sink.NeverCloses (Collector.empty none) := Collector.neverCloses_unlimited #[]
  have hrun := Stream.perform_delivers (Stream.perform_neverCloses hopen actions)
  rw [Collector.body, Collector.frames_of_takeAll? hrun.frames]
  rfl

/-- A client gets of a reply what its commands put out. -/
theorem transcript?_schedule (p : Provider) (x : Context) (replyId : String) {cs : List Command} (hcs : cs ≠ []) :
    transcript? p (perform (Collector.empty none) (p.schedule x replyId cs)).collector.body =
      some ((cs.map Command.directive).foldl (Transcript.tell (Arguments.ofCall p)) .empty) := by
  have hmap : ∀ {α : Type} (f : α → Arguments) (read : String → α),
      ((cs.map Command.directive).foldl (Transcript.tell read) .empty).map f =
        (cs.map Command.directive).foldl (Transcript.tell fun raw => f (read raw)) .empty := fun f read =>
    Transcript.map_foldl_tell f read _ .empty
  cases p with
  | openAi =>
    show (Client.OpenAi.transcript? (perform (Collector.empty none) (schedule x _ cs)).collector.body).map _ = _
    rw [body_perform, Stream.frames_schedule x _ hcs, Client.OpenAi.transcript?_frames, Option.map_some, hmap]
    rfl
  | anthropic =>
    show (Client.Anthropic.transcript? (perform (Collector.empty none) (schedule x _ cs)).collector.body).map _ = _
    rw [body_perform, Stream.frames_schedule x _ hcs, Client.Anthropic.transcript?_frames x _ _ hcs, Option.map_some,
      hmap]
    rfl
  | gemini =>
    show (Client.Gemini.transcript? (perform (Collector.empty none) (schedule x _ cs)).collector.body).map _ = _
    rw [body_perform, Stream.frames_schedule x _ hcs, Client.Gemini.transcript?_frames x _ hcs, Option.map_some, hmap]
    rfl

/-! ## The echo -/

/-- Whatever a server without keys did before, it answers a request for a printed script with a stream, if there
is a channel with the configured room; else it gives no answer. What a client of the provider gets of the stream
is what the script says before, between and after its calls, and its calls. -/
theorem handle_echoes {c : Configuration} (hkeys : c.keys = []) {ss : List Statement} (hss : ∀ st ∈ ss, st.InBounds)
    (hout : ∃ st ∈ ss, st.directive? ≠ none) {script : String} (hscript : Prints ss script.toList) {p : Provider}
    {q : Request} (hq : q.Asks p script) (s : State) (o : Occasion) :
    (c.streaming.capacity.toNat ≤ Stream.Channel.largest →
      Responds (fun a => a.2.status = 200 ∧ ∃ t, transcript? p a.2.body = some t ∧
        t.texts = Client.sayings (ss.filterMap Statement.directive?) ∧
        t.calls = (ss.filterMap Statement.directive?).filterMap (Client.call? (Arguments.ofCall p)))
        (handle c s o q)) ∧
    (Stream.Channel.largest < c.streaming.capacity.toNat → (handle c s o q).2 = none) := by
  obtain ⟨asked?, hhandle⟩ := handle_of_asks hkeys hq s o
  have hreply := hhandle _ (streamed_of_parse (Script.parseScript_of_prints hscript hss))
  have hdirectives := Script.directives_commandsFrom .unset ss
  -- With something to put out there are commands, and no notice is streamed.
  have hcs : Script.commandsFrom .unset ss ≠ [] := by
    intro hnil
    rw [hnil] at hdirectives
    obtain ⟨st, hst, hne⟩ := hout
    exact hne (List.filterMap_eq_nil_iff.1 hdirectives.symm st hst)
  constructor
  · intro hroom
    rw [hreply, reply_of_le hroom]
    refine ⟨_, rfl, status_finished _, ((Script.commandsFrom .unset ss).map Command.directive).foldl
      (Transcript.tell (Arguments.ofCall p)) .empty, ?_, ?_, ?_⟩
    · rw [finished_of_ne_head (ne_head_of_posted hq.method)]
      exact transcript?_schedule p _ _ hcs
    · rw [Transcript.texts_foldl_tell_empty, hdirectives]
    · rw [Transcript.calls_foldl_tell, hdirectives]
      rfl
  · intro hroom
    rw [hreply, reply_of_lt hroom]
    rfl

/-- A script that says something before, between and after two calls, asked of a server that was just
started. -/
theorem handle_echoes_two :
    let ss : List Statement :=
      [.chunkSize 2, .say "data: é\n", .toolCall "f" "\x7b\"a\":1\x7d", .say "b\"", .say "\\", .toolCall "g" ""]
    let script := String.ofList (Script.renderScript ss)
    let q : Request := ⟨"POST", ⟨"/v1/messages", none⟩, [], Utf8.encode (askingValue .anthropic script).write⟩
    let o : Occasion := ⟨⟨0, ""⟩, fun _ => 0, "", "", fun _ => "", fun _ => "", ""⟩
    Configuration.default.keys = [] ∧ (∀ st ∈ ss, st.InBounds) ∧ (∃ st ∈ ss, st.directive? ≠ none) ∧
      Prints ss script.toList ∧ q.Asks .anthropic script ∧
      Responds (fun a => a.2.status = 200 ∧ ∃ t, transcript? .anthropic a.2.body = some t ∧
        t.texts = ["data: é\n", "b\"\\", ""] ∧ t.calls = [("f", .raw "\x7b\"a\":1\x7d"), ("g", .raw "")])
        (handle .default .initial o q) := by
  intro ss script q o
  have hkeys : Configuration.default.keys = [] := rfl
  have hss : ∀ st ∈ ss, st.InBounds := by
    simp [ss, Statement.InBounds]
  have hout : ∃ st ∈ ss, st.directive? ≠ none := ⟨.toolCall "g" "", by decide, by decide⟩
  have hscript : Prints ss script.toList := by
    rw [String.toList_ofList]
    exact Script.prints_renderScript ss
  have hq : q.Asks .anthropic script :=
    { method := rfl
      route := ⟨.messages, by decide, .messages⟩
      body := ⟨_, _, rfl, (askingValue .anthropic script).spells_write, isRequest_askingValue .anthropic script⟩
      size := by decide +kernel }
  have hroom : Configuration.default.streaming.capacity.toNat ≤ Stream.Channel.largest := by decide
  obtain ⟨r, hr, hstatus, t, ht, htexts, hcalls⟩ := (handle_echoes hkeys hss hout hscript hq .initial o).1 hroom
  exact ⟨hkeys, hss, hout, hscript, hq, r, hr, hstatus, t, ht, htexts.trans (by decide), hcalls⟩

end ScriptedModel.Http
