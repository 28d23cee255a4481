/-
What the frames of a response tell of its calls, and what is stored of them. A call is stored before
its frames are sent, so a client that is cut off never has the identifier of a call that is not
stored, though one call may be stored of which it has nothing.

Main statement: however many frames are delivered, the calls that are stored are those whose frames
begin within them or right after them, and what the frames tell of a call is what is stored of it.
-/
import ScriptedModel.Proofs.Client.Ending
import ScriptedModel.Proofs.Stream.Storage

namespace ScriptedModel.Client

open Json (Document Value)
open Script (Command)
open ScriptedModel.Client.Anthropic.Change (text?)
open ScriptedModel.Stream

/-! ## Reading frames -/

/-- What a client learns of a call: its identifier and its tool with the first piece of its arguments,
a further piece, or the tool and the arguments at once. -/
inductive Mention
  | opening (callId toolName added : String)
  | more (added : String)
  | whole (toolName : String) (arguments : Document)
  deriving Repr

/-- The items of an array, if there is one. -/
def items : Option Document → List Document
  | some (.array ds) => ds
  | _ => []

namespace Mention

/-- An entry that has an identifier opens a call; any other goes on with one. -/
def ofOpenAiCall? (d : Document) : Option Mention := do
  let function ← d.member? "function"
  let added ← text? "arguments" function
  match text? "id" d with
  | some callId => return .opening callId (← text? "name" function) added
  | none => return .more added

/-- What a chunk tells of calls, by the entries of its choices. -/
def ofOpenAi (d : Document) : List Mention :=
  (items (d.member? "choices")).flatMap fun choice =>
    (items ((choice.member? "delta").bind (·.member? "tool_calls"))).filterMap ofOpenAiCall?

/-- A block that has an identifier is a call. -/
def ofAnthropic? (d : Document) : Option Mention :=
  match d.member? "content_block" with
  | some block => do return .opening (← text? "id" block) (← text? "name" block) ""
  | none => do return .more (← text? "partial_json" (← d.member? "delta"))

/-- A part that has a call tells all of it. -/
def ofGeminiPart? (d : Document) : Option Mention := do
  let called ← d.member? "functionCall"
  return .whole (← text? "name" called) (← called.member? "args")

/-- What a document tells of calls, by the parts of its candidates. -/
def ofGemini (d : Document) : List Mention :=
  (items (d.member? "candidates")).flatMap fun candidate =>
    (items ((candidate.member? "content").bind (·.member? "parts"))).filterMap ofGeminiPart?

end Mention

/-- The documents that a frame of events carries. -/
def payloads (frame : String) : List Document :=
  (EventStream.read frame).filterMap fun e => Document.ofSource? (Json.sourceOf e.data)

/-- All that a frame tells of calls. -/
def mentions (p : Provider) (frame : String) : List Mention :=
  match p with
  | .openAi => (payloads frame).flatMap Mention.ofOpenAi
  | .anthropic => (payloads frame).filterMap Mention.ofAnthropic?
  | .gemini => (Document.ofSource? (Json.sourceOf frame)).toList.flatMap Mention.ofGemini

/-- What is told of a call, where this is what is stored of it: its identifier and its tool with pieces
that make up its arguments, or the tool with the object that the arguments make. -/
inductive Announces (r : StoredResponse) : List Mention → Prop
  | pieces (hp : r.provider ≠ .gemini) (first : String) (rest : List String)
    (h : String.join (first :: rest) = r.arguments) :
    Announces r (.opening r.callId r.toolName first :: rest.map .more)
  | whole (hp : r.provider = .gemini) : Announces r [.whole r.toolName r.parsedArguments.document]

namespace Announces

variable {r : StoredResponse} {ms : List Mention}

theorem of_opening {callId toolName added : String} (h : Announces r ms) (hm : .opening callId toolName added ∈ ms) :
    callId = r.callId ∧ toolName = r.toolName := by
  cases h with
  | pieces hp first rest hjoin =>
    rcases List.mem_cons.1 hm with hm | hm
    · cases hm
      exact ⟨rfl, rfl⟩
    · obtain ⟨_, -, hm⟩ := List.mem_map.1 hm
      cases hm
  | whole hp => cases List.mem_singleton.1 hm

theorem of_whole {toolName : String} {arguments : Document} (h : Announces r ms) (hm : .whole toolName arguments ∈ ms) :
    toolName = r.toolName ∧ arguments = r.parsedArguments.document := by
  cases h with
  | pieces hp first rest hjoin =>
    rcases List.mem_cons.1 hm with hm | hm
    · cases hm
    · obtain ⟨_, -, hm⟩ := List.mem_map.1 hm
      cases hm
  | whole hp =>
    cases List.mem_singleton.1 hm
    exact ⟨rfl, rfl⟩

end Announces

/-! ## Frames of the formats -/

/-- Frames that tell of a call what is stored of it, and nothing else. -/
structure IsReadAs (σ : Type) [Framer σ] (p : Provider) : Prop where
  text : ∀ (s : σ) (u : TextUnit), (Framer.text s u).2.flatMap (mentions p) = []
  close : ∀ s : σ, (Framer.close s).2.flatMap (mentions p) = []
  call : ∀ (s : σ) (u : ToolUnit) (createdAt : String),
    Announces (.ofCall u.callId u.toolName u.arguments p createdAt) ((Framer.toolCall s u).2.flatMap (mentions p))

theorem payloads_frame {m : Message} (h : m.IsEvent) : payloads m.frame = (m.value?.map Value.document).toList := by
  rw [payloads, Message.read_frame h]
  rcases m with ⟨name?, v⟩ | ⟨v, isLast⟩ | _
  · show [(⟨name?.getD "message", v.compact⟩ : EventStream.Event)].filterMap _ = [v.document]
    rw [List.filterMap_cons, v.ofSource?_compact]
    rfl
  · exact h.elim
  · -- The sign that the response is over is no document.
    have hdone : (Document.ofSource? (Json.sourceOf OpenAi.doneData)).isNone := by decide +kernel
    show [(⟨"message", OpenAi.doneData⟩ : EventStream.Event)].filterMap _ = []
    rw [List.filterMap_cons, Option.isNone_iff_eq_none.1 hdone]
    rfl

namespace OpenAi

open ScriptedModel.Stream.OpenAi (Chunk Event State)

/-- What an entry that is sent tells of its call. -/
def toolMention (d : Stream.OpenAi.ToolCallDelta) : Mention :=
  match d.opening with
  | some (callId, toolName) => .opening callId toolName d.arguments
  | none => .more d.arguments

/-- What a chunk that is sent tells of a call. -/
def mention? : Event → Option Mention
  | .chunk ⟨_, _, _, _, .toolCall d, _⟩ => some (toolMention d)
  | _ => none

theorem ofOpenAiCall?_document (d : Stream.OpenAi.ToolCallDelta) :
    Mention.ofOpenAiCall? d.toJson.document = some (toolMention d) := by
  obtain ⟨index, _ | ⟨callId, toolName⟩, arguments⟩ := d
  · simp [Mention.ofOpenAiCall?, Anthropic.text?_document, Document.member?_document, Stream.OpenAi.ToolCallDelta.toJson,
      Value.member?, Document.string?_document, toolMention]
  · simp [Mention.ofOpenAiCall?, Anthropic.text?_document, Document.member?_document, Stream.OpenAi.ToolCallDelta.toJson,
      Value.member?, Document.string?_document, toolMention]

theorem ofOpenAi_document (c : Chunk) : Mention.ofOpenAi c.toJson.document = (mention? (.chunk c)).toList := by
  have hdelta : Mention.ofOpenAi c.toJson.document =
      (items (c.deltaJson.document.member? "tool_calls")).filterMap Mention.ofOpenAiCall? ++ [] := rfl
  rw [hdelta, Document.member?_document, Chunk.deltaJson]
  obtain ⟨id, created, model, first, added | d, finish⟩ := c
  · cases first <;> rfl
  · have hitems : (items (some (Value.array [d.toJson]).document)).filterMap Mention.ofOpenAiCall? = [toolMention d] := by
      show [d.toJson.document].filterMap _ = _
      rw [List.filterMap_cons, ofOpenAiCall?_document]
      rfl
    cases first <;> exact (List.append_nil _).trans hitems

theorem mentions_frame (e : Event) : mentions .openAi e.frame = (mention? e).toList := by
  rw [mentions, ← Message.frame_ofOpenAi, payloads_frame (Message.isEvent_ofOpenAi e)]
  cases e with
  | chunk c => exact (List.append_nil _).trans (ofOpenAi_document c)
  | done => rfl

theorem mentions_frames (es : List Event) : (es.map Event.frame).flatMap (mentions .openAi) = es.filterMap mention? := by
  rw [List.flatMap_map, List.filterMap_eq_flatMap_toList]
  simp only [mentions_frame]

theorem mentions_laterPieces (s : State) (terminal : Bool) (rest : List String) :
    (s.laterPieces terminal rest).filterMap mention? = rest.map .more := by
  induction rest with
  | nil => rfl
  | cons piece rest ih => exact congrArg (Mention.more piece :: ·) ih

theorem isReadAs : IsReadAs State .openAi where
  text s u := mentions_frames (s.textEvents u)
  close s := mentions_frames [.done]
  call s u createdAt := by
    have hjoin := join_chunkText u.arguments u.chunkSize
    have hne := chunkText_ne_nil u.arguments u.chunkSize
    show Announces _ (((s.toolEvents u).map Event.frame).flatMap (mentions .openAi))
    rw [mentions_frames]
    unfold State.toolEvents
    generalize chunkText u.arguments u.chunkSize = pieces at hjoin hne ⊢
    obtain ⟨piece, rest, rfl⟩ := List.exists_cons_of_ne_nil hne
    show Announces _ (.opening u.callId u.toolName piece :: (s.laterPieces u.terminal rest).filterMap mention?)
    rw [mentions_laterPieces]
    exact .pieces (by simp [StoredResponse.ofCall]) piece rest hjoin

end OpenAi

namespace Anthropic

open ScriptedModel.Stream.Anthropic (Event State)

/-- What an event that is sent tells of a call. -/
def mention? : Event → Option Mention
  | .blockStart _ (.toolUse callId toolName) => some (.opening callId toolName "")
  | .blockDelta _ (.inputJson raw) => some (.more raw)
  | _ => none

theorem ofAnthropic?_document (e : Event) : Mention.ofAnthropic? e.toJson.document = mention? e := by
  cases e with
  | messageStart => rfl
  | blockStop => rfl
  | messageStop => rfl
  | messageDelta => rfl
  | blockStart index block =>
    cases block <;> simp [Mention.ofAnthropic?, text?_document, Document.member?_document, Event.toJson,
      Stream.Anthropic.Block.toJson, Value.member?, Document.string?_document, mention?]
  | blockDelta index delta =>
    cases delta <;> simp [Mention.ofAnthropic?, text?_document, Document.member?_document, Event.toJson,
      Stream.Anthropic.Delta.toJson, Value.member?, Document.string?_document, mention?]

theorem mentions_frame (e : Event) : mentions .anthropic e.frame = (mention? e).toList := by
  show (payloads (Message.ofAnthropic e).frame).filterMap _ = _
  rw [payloads_frame (Message.isEvent_ofAnthropic e)]
  show [e.toJson.document].filterMap _ = _
  rw [List.filterMap_cons, ofAnthropic?_document]
  cases mention? e <;> rfl

theorem mentions_frames (es : List Event) : (es.map Event.frame).flatMap (mentions .anthropic) = es.filterMap mention? := by
  rw [List.flatMap_map, List.filterMap_eq_flatMap_toList]
  simp only [mentions_frame]

theorem isReadAs : IsReadAs State .anthropic where
  text s u := by
    refine (mentions_frames (s.textEvents u)).trans ?_
    unfold State.textEvents State.startEvents State.stopEvents
    cases s.block <;> cases s.started <;> rfl
  close s := by
    refine (mentions_frames s.closeEvents).trans ?_
    unfold State.closeEvents State.startEvents State.stopEvents
    cases s.block <;> cases s.started <;> rfl
  call s u createdAt := by
    have htold : (s.toolEvents u).filterMap mention? =
        .opening u.callId u.toolName "" :: [u.arguments].map Mention.more := by
      unfold State.toolEvents State.startEvents State.stopEvents
      cases s.block <;> cases s.started <;> rfl
    show Announces _ (((s.toolEvents u).map Event.frame).flatMap (mentions .anthropic))
    rw [mentions_frames, htold]
    exact .pieces (by simp [StoredResponse.ofCall]) "" [u.arguments] (by simp [StoredResponse.ofCall])

end Anthropic

namespace Gemini

theorem ofGemini_document (d : Stream.Gemini.Document) :
    Mention.ofGemini d.toJson.document =
      match d.part with
      | .text _ => []
      | .functionCall name args => [.whole name args.document] := by
  have hpart : Mention.ofGemini d.toJson.document = [d.part.toJson.document].filterMap Mention.ofGeminiPart? ++ [] := rfl
  rw [hpart, List.append_nil, List.filterMap_cons, List.filterMap_nil]
  cases d.part with
  | text content => rfl
  | functionCall name args =>
    simp [Mention.ofGeminiPart?, Document.member?_document, Anthropic.text?_document, Stream.Gemini.Part.toJson,
      Value.member?, Document.string?_document]

theorem mentions_frame (d : Stream.Gemini.Document) :
    mentions .gemini d.frame =
      match d.part with
      | .text _ => []
      | .functionCall name args => [.whole name args.document] := by
  show (Document.ofSource? (Json.sourceOf (Message.ofGemini d).frame)).toList.flatMap Mention.ofGemini = _
  rw [Message.ofSource?_frame, ← ofGemini_document]
  exact List.append_nil _

theorem isReadAs : IsReadAs Stream.Gemini.State .gemini where
  text s u := by
    show [(Stream.Gemini.textDocument u).frame].flatMap _ = []
    rw [List.flatMap_singleton, mentions_frame]
    rfl
  close s := rfl
  call s u createdAt := by
    show Announces _ ([(Stream.Gemini.toolDocument u).frame].flatMap _)
    rw [List.flatMap_singleton, mentions_frame]
    exact .whole rfl

end Gemini

/-! ## Responses that are cut short -/

/-- How what is stored of a response that is cut short after n frames agrees with what its client gets.
The sites are those of the calls of the commands, as they stand in the whole response. -/
structure Agreement (p : Provider) (x : Context) (cs : List Command) (sites : List CallSite) (n : Nat)
    (whole cut : Run Collector) : Prop where
  calls : sites.map (CallSite.stored x p) =
    (cs.filterMap Stream.call?).zipIdx.map fun c => .ofCall (x.callId c.2) c.1.1 c.1.2 p (x.callTime c.2)
  placed : ∀ c ∈ sites, ∃ earlier later,
    whole.collector.frames.toList = earlier ++ (c.frames ++ later) ∧ earlier.length = c.before ∧
    cut.collector.frames.toList = earlier.take n ++ (c.arrived n ++ later.take (n - c.before - c.frames.length))
  told : ∀ c ∈ sites, Announces (c.stored x p) (c.frames.flatMap (mentions p))
  delivered : cut.collector.frames.toList.flatMap (mentions p) = sites.flatMap fun c => (c.arrived n).flatMap (mentions p)
  stored : cut.stored = (sites.filter fun c => c.before ≤ n).map (CallSite.stored x p)
  entries : (ToolStore.empty.putAll cut.stored).entries = cut.stored.map fun r => (r.callId, r)
  /-- An identifier that is delivered is a key, and its call is stored with the tool that is delivered. -/
  named : ∀ frame ∈ cut.collector.frames.toList, ∀ callId toolName added,
    .opening callId toolName added ∈ mentions p frame →
      ∃ r, (ToolStore.empty.putAll cut.stored).get? callId = some r ∧ r.toolName = toolName
  /-- A call that is delivered to its last frame is stored as what is delivered of it. -/
  complete : ∀ c ∈ sites, c.before + c.frames.length ≤ n →
    ∃ r, (ToolStore.empty.putAll cut.stored).get? (c.stored x p).callId = some r ∧
      Announces r ((c.arrived n).flatMap (mentions p))
  /-- An object of arguments that is delivered is stored. -/
  structured : ∀ frame ∈ cut.collector.frames.toList, ∀ toolName arguments,
    .whole toolName arguments ∈ mentions p frame →
      ∃ r ∈ cut.stored, r.toolName = toolName ∧ r.parsedArguments.document = arguments
  /-- No more than one call is stored of which no frame is delivered. -/
  pending : ((sites.filter fun c => c.before ≤ n).filter fun c => (c.arrived n).isEmpty).length ≤ 1

theorem exists_site_of_mention {p : Provider} {sites : List CallSite} {n : Nat} {frames : List String}
    (h : frames.flatMap (mentions p) = sites.flatMap fun c => (c.arrived n).flatMap (mentions p)) {frame : String}
    (hframe : frame ∈ frames) {m : Mention} (hm : m ∈ mentions p frame) :
    ∃ c ∈ sites, c.before < n ∧ m ∈ c.frames.flatMap (mentions p) := by
  have hmem := List.mem_flatMap.2 ⟨frame, hframe, hm⟩
  rw [h] at hmem
  obtain ⟨c, hc, hmem⟩ := List.mem_flatMap.1 hmem
  obtain ⟨frame', hframe', hm⟩ := List.mem_flatMap.1 hmem
  refine ⟨c, hc, ?_, List.mem_flatMap.2 ⟨frame', List.mem_of_mem_take hframe', hm⟩⟩
  -- A call whose frames begin after the last that is delivered has none among these.
  by_contra hlate
  rw [CallSite.arrived, Nat.sub_eq_zero_of_le (by omega), List.take_zero] at hframe'
  cases hframe'

theorem length_pending_le_one {sites : List CallSite} (n : Nat)
    (hpairwise : sites.Pairwise fun a b => a.before + a.frames.length ≤ b.before)
    (hne : ∀ c ∈ sites, c.frames ≠ []) :
    ((sites.filter fun c => c.before ≤ n).filter fun c => (c.arrived n).isEmpty).length ≤ 1 := by
  have hsub : ((sites.filter fun c => c.before ≤ n).filter fun c => (c.arrived n).isEmpty).Sublist sites :=
    List.filter_sublist.trans List.filter_sublist
  have hbefore : ∀ c ∈ (sites.filter fun c => c.before ≤ n).filter fun c => (c.arrived n).isEmpty,
      c.before = n ∧ 0 < c.frames.length := by
    intro c hc
    have hframes := hne c (hsub.subset hc)
    simp only [List.mem_filter, decide_eq_true_eq, List.isEmpty_iff, CallSite.arrived, List.take_eq_nil_iff, hframes,
      or_false] at hc
    exact ⟨by omega, List.length_pos_iff.2 hframes⟩
  have hpairwise := hpairwise.sublist hsub
  generalize (sites.filter fun c => c.before ≤ n).filter _ = pending at hpairwise hbefore
  rcases pending with _ | ⟨a, _ | ⟨b, rest⟩⟩
  · exact Nat.zero_le 1
  · exact Nat.le_refl 1
  · have ha := hbefore a List.mem_cons_self
    have hb := hbefore b (List.mem_cons_of_mem a List.mem_cons_self)
    have hab := List.rel_of_pairwise_cons hpairwise List.mem_cons_self
    omega

section Agreement

variable {σ : Type} [Framer σ] {p : Provider}

theorem announces_of_mem (hread : IsReadAs σ p) (x : Context) {s : σ} {calls sent : Nat} {us : List OutputUnit}
    {c : CallSite} (h : c ∈ callSites s calls sent us) : Announces (c.stored x p) (c.frames.flatMap (mentions p)) := by
  obtain ⟨s', hs'⟩ := exists_toolCall_of_mem h
  rw [hs']
  exact hread.call s' c.call (x.callTime c.number)

/-- A response that is under way has stored the calls whose identifiers are in the frames that it has sent. -/
theorem exists_stored_of_opening (hread : IsReadAs σ p) (x : Context) {s : σ} (hs : Framer.provider s = p)
    (cs : List Command) {done rest : List Action} (h : done ++ rest = schedule x s cs)
    {frame : String} (hframe : frame ∈ done.filterMap Action.frame?) {callId toolName added : String}
    (hm : .opening callId toolName added ∈ mentions p frame) :
    ∃ r ∈ done.filterMap Action.stored?, r.callId = callId ∧ r.toolName = toolName := by
  let n := (done.filterMap Action.frame?).length
  have hframes : done.filterMap Action.frame? = (Framer.framesOf s (units x (spoken cs))).take n := by
    rw [← frames_schedule x s (spoken_ne_nil cs), schedule_spoken, ← h, List.filterMap_append, List.take_left]
  have hread' := flatMap_take_framesOf hread.text hread.close n s (units x (spoken cs))
  rw [← hframes] at hread'
  obtain ⟨c, hc, hn, hm⟩ := exists_site_of_mention hread' hframe hm
  obtain ⟨rfl, rfl⟩ := (announces_of_mem hread x hc).of_opening hm
  refine ⟨c.stored x p, ?_, rfl, rfl⟩
  -- A call whose frames begin before some that are sent is stored among what is done.
  have hstorings : (c.before, c.stored x p) ∈ storings 0 done ++ storings n rest := by
    have hsplit := storings_append 0 done rest
    rw [Nat.zero_add] at hsplit
    rw [← hsplit, h, storings_schedule, hs]
    exact List.mem_map_of_mem hc
  rcases List.mem_append.1 hstorings with hdone | hlater
  · rw [← map_snd_storings 0 done]
    exact List.mem_map_of_mem hdone
  · exact absurd (mem_storings hlater).1 (Nat.not_le.2 hn)

theorem agreement_schedule (hread : IsReadAs σ p) (hspeaks : Framer.Speaks σ) (x : Context) {s : σ}
    (hs : Framer.provider s = p) (cs : List Command) (n : Nat)
    (hids : ((List.range (cs.filterMap Stream.call?).length).map x.callId).Nodup) :
    Agreement p x cs (callSites s 0 0 (units x (spoken cs))) n (perform (Collector.empty none) (schedule x s cs))
      (perform (Collector.empty (some n)) (schedule x s cs)) := by
  have hwhole := Collector.frames_perform_unlimited (schedule x s cs)
  have hframes := (perform_cutAt n (pausesLead_schedule hspeaks x s cs)).frames
  rw [← schedule_spoken, frames_schedule x s (spoken_ne_nil cs), schedule_spoken] at hwhole hframes
  have hstored := stored_cutAt x s cs hspeaks n
  rw [hs] at hstored
  generalize perform (Collector.empty none) (schedule x s cs) = whole at hwhole ⊢
  generalize perform (Collector.empty (some n)) (schedule x s cs) = cut at hframes hstored ⊢
  have hdelivered := flatMap_take_framesOf hread.text hread.close n s (units x (spoken cs))
  rw [← hframes] at hdelivered
  have htold : ∀ c ∈ callSites s 0 0 (units x (spoken cs)),
      Announces (c.stored x p) (c.frames.flatMap (mentions p)) := fun c hc => announces_of_mem hread x hc
  have hkeys : (cut.stored.map StoredResponse.callId).Nodup := by
    rw [← callId_callSites x s cs p] at hids
    rw [hstored, List.map_map]
    exact hids.sublist (List.filter_sublist.map _)
  have hkept : ∀ c ∈ callSites s 0 0 (units x (spoken cs)), c.before ≤ n → c.stored x p ∈ cut.stored := by
    intro c hc hn
    rw [hstored]
    exact List.mem_map_of_mem (List.mem_filter.2 ⟨hc, decide_eq_true hn⟩)
  have hentry : ∀ c ∈ callSites s 0 0 (units x (spoken cs)), c.before ≤ n →
      (ToolStore.empty.putAll cut.stored).get? (c.stored x p).callId = some (c.stored x p) :=
    fun c hc hn => ToolStore.empty.get?_putAll_of_mem hkeys (hkept c hc hn)
  exact {
    calls := stored_callSites x s cs p
    placed := by
      intro c hc
      rw [hwhole, hframes]
      exact exists_framesOf_of_mem hc n
    told := htold
    delivered := hdelivered
    stored := hstored
    entries := ToolStore.entries_putAll .empty hkeys
    named := by
      intro frame hframe callId toolName added hm
      obtain ⟨c, hc, hn, hm⟩ := exists_site_of_mention hdelivered hframe hm
      obtain ⟨rfl, rfl⟩ := (htold c hc).of_opening hm
      exact ⟨_, hentry c hc (Nat.le_of_lt hn), rfl⟩
    complete := by
      intro c hc hn
      refine ⟨_, hentry c hc (by omega), ?_⟩
      rw [CallSite.arrived, List.take_of_length_le (by omega)]
      exact htold c hc
    structured := by
      intro frame hframe toolName arguments hm
      obtain ⟨c, hc, hn, hm⟩ := exists_site_of_mention hdelivered hframe hm
      obtain ⟨rfl, rfl⟩ := (htold c hc).of_whole hm
      exact ⟨_, hkept c hc (Nat.le_of_lt hn), rfl, rfl⟩
    pending := length_pending_le_one n (pairwise_callSites s 0 0 _) fun c hc => frames_ne_nil_of_mem hspeaks hc }

end Agreement

/-- Wherever a response is cut off, an identifier in a frame that was sent is that of a call that was stored
before. -/
theorem exists_stored_of_mention (p : Provider) (x : Context) (replyId : String) (cs : List Command)
    {done rest : List Action} (h : done ++ rest = p.schedule x replyId cs) {frame : String}
    (hframe : frame ∈ done.filterMap Action.frame?) {callId toolName added : String}
    (hm : .opening callId toolName added ∈ mentions p frame) :
    ∃ r ∈ done.filterMap Action.stored?, r.callId = callId ∧ r.toolName = toolName := by
  cases p with
  | openAi => exact exists_stored_of_opening OpenAi.isReadAs x rfl cs h hframe hm
  | anthropic => exact exists_stored_of_opening Anthropic.isReadAs x rfl cs h hframe hm
  | gemini => exact exists_stored_of_opening Gemini.isReadAs x rfl cs h hframe hm

/-- A collector that closes after n frames of a response leaves the calls stored, in order, whose frames
begin within these or right after them, each under its own identifier and with its tool, its arguments,
the object that they make and the provider; and what its client has of calls is what is stored of them. -/
theorem agreement_perform (p : Provider) (x : Context) (replyId : String) (cs : List Command) (n : Nat)
    (hids : ((List.range (cs.filterMap Stream.call?).length).map x.callId).Nodup) :
    Agreement p x cs (p.callSites x replyId cs) n (perform (Collector.empty none) (p.schedule x replyId cs))
      (perform (Collector.empty (some n)) (p.schedule x replyId cs)) := by
  cases p with
  | openAi => exact agreement_schedule OpenAi.isReadAs OpenAi.speaks x rfl cs n hids
  | anthropic => exact agreement_schedule Anthropic.isReadAs Anthropic.speaks x rfl cs n hids
  | gemini => exact agreement_schedule Gemini.isReadAs Gemini.speaks x rfl cs n hids

/-- A text and two calls, cut short where the frames of the first call begin: it is stored, and its client
has nothing of it. -/
theorem agreement_perform_two :
    let x : Context := ⟨"m", 0, 0, fun n => if n = 0 then "a" else "b", fun _ => "", fun _ => 0⟩
    let cs : List Command := [⟨.say "hi", .unset⟩, ⟨.toolCall "f" "\x7b\x7d", .unset⟩, ⟨.toolCall "g" "", .unset⟩]
    let sites := Provider.openAi.callSites x "id" cs
    let cut := perform (Collector.empty (some 1)) (Provider.openAi.schedule x "id" cs)
    ((List.range (cs.filterMap Stream.call?).length).map x.callId).Nodup ∧
      Agreement .openAi x cs sites 1 (perform (Collector.empty none) (Provider.openAi.schedule x "id" cs)) cut ∧
      sites.map CallSite.before = [1, 2] ∧ cut.stored.map StoredResponse.callId = ["a"] ∧
      cut.collector.frames.size = 1 := by
  refine ⟨by decide, agreement_perform .openAi _ "id" _ 1 (by decide), ?_, ?_, ?_⟩
  · decide +kernel
  · decide +kernel
  · decide +kernel

end ScriptedModel.Client
