/-
A client that assembles an OpenAI message from its chunks: it appends content and merges entries of
calls by their index.

Main statement: what a completed stream has given its sink is the chunks of one message and the sign
that the message is over. All chunks name the same message, the first alone has the role and the last
alone a reason to finish, and the client gets from them the chunks of the texts and the calls of the
commands.
-/
import ScriptedModel.Proofs.Client.OpenAi
import ScriptedModel.Proofs.Stream.Deltas
import ScriptedModel.Proofs.Stream.Storage

namespace ScriptedModel.Client.OpenAi

open Json (Value)
open Script (Command)
open ScriptedModel.Stream
open ScriptedModel.Stream.OpenAi

/-! ## Events of units -/

theorem unitEvents_place (callId : Nat → String) (first : Bool) (s : State) (ms : List Matter) :
    unitEvents s (place callId first s.toolCalls ms) =
      (chunksOf s.id s.created s.model (some (finishOf ms)) first
        (unitDeltas s.toolCalls (place callId first s.toolCalls ms))).map .chunk := by
  induction ms generalizing first s with
  | nil => rfl
  | cons m ms ih =>
    -- The reason is that of the last unit, and there is no unit after it.
    have hfinish : (if ms.isEmpty then some (finishOf (m :: ms)) else none) =
        (if ms.isEmpty then some (finishOf [m]) else none) := by
      cases ms <;> rfl
    have hlater : ∀ ds : List Stream.OpenAi.Delta, ds.isEmpty = ms.isEmpty →
        chunksOf s.id s.created s.model (some (finishOf (m :: ms))) false ds =
          chunksOf s.id s.created s.model (some (finishOf ms)) false ds := by
      intro ds hds
      cases ms with
      | nil => rw [List.isEmpty_iff.1 hds]; rfl
      | cons m' ms => rw [finishOf_cons m (List.cons_ne_nil m' ms)]
    cases m with
    | text chunk =>
      have hempty := isEmpty_unitDeltas callId false s.toolCalls ms
      show s.textEvents _ ++ unitEvents s (place callId false s.toolCalls ms) =
        (chunksOf _ _ _ _ first ([.content chunk] ++ unitDeltas s.toolCalls (place callId false s.toolCalls ms))).map _
      rw [chunksOf_append _ _ _ _ _ (List.cons_ne_nil _ _), hempty, hlater _ hempty, hfinish, List.map_append, ih]
      rfl
    | tool toolName arguments size =>
      have hempty := isEmpty_unitDeltas callId false (s.toolCalls + 1) ms
      show s.toolEvents _ ++ unitEvents { s with toolCalls := s.toolCalls + 1 } (place callId false (s.toolCalls + 1) ms) =
        (chunksOf _ _ _ _ first (callDeltas s.toolCalls (callId s.toolCalls) toolName (chunkText arguments size) ++
          unitDeltas (s.toolCalls + 1) (place callId false (s.toolCalls + 1) ms))).map _
      rw [chunksOf_append _ _ _ _ _ (callDeltas_ne_nil _ _ _ (chunkText_ne_nil _ _)), hempty, hlater _ hempty, hfinish,
        List.map_append, toolEvents_eq, ih false { s with toolCalls := s.toolCalls + 1 }]
      rfl

/-! ## Reading chunks -/

/-- The only choice of a chunk. -/
def choice? (chunk : Value) : Option Value :=
  match chunk.member? "choices" with
  | some (.array [choice]) => some choice
  | _ => none

/-- A member of the delta of a chunk. -/
def deltaMember? (chunk : Value) (name : String) : Option Value :=
  ((choice? chunk).bind (·.member? "delta")).bind (·.member? name)

/-- An entry of a call. It tells the call, its type and the tool, or none of them. -/
def toolCall? (v : Value) : Option ToolCallDelta := do
  let function ← v.member? "function"
  match v.member? "index", function.member? "arguments" with
  | some (.number (.integer (.ofNat index))), some (.string arguments) =>
    match v.member? "id", v.member? "type", function.member? "name" with
    | some (.string callId), some (.string "function"), some (.string toolName) =>
      return ⟨index, some (callId, toolName), arguments⟩
    | none, none, none => return ⟨index, none, arguments⟩
    | _, _, _ => none
  | _, _ => none

/-- What a chunk adds: content, or one entry of a call, and never both. -/
def added? (chunk : Value) : Option Stream.OpenAi.Delta :=
  match deltaMember? chunk "content", deltaMember? chunk "tool_calls" with
  | some (.string text), none => some (.content text)
  | none, some (.array [entry]) => (toolCall? entry).map .toolCall
  | _, _ => none

theorem toolCall?_toJson (d : ToolCallDelta) : toolCall? d.toJson = some d := by
  obtain ⟨index, _ | ⟨callId, toolName⟩, arguments⟩ := d <;> rfl

theorem added?_toJson (c : Chunk) : added? c.toJson = some c.delta := by
  obtain ⟨id, created, model, first, text | d, finish⟩ := c
  · cases first <;> rfl
  · have hentry : (toolCall? d.toJson).map Stream.OpenAi.Delta.toolCall = some (.toolCall d) := by
      rw [toolCall?_toJson]
      rfl
    cases first <;> exact hentry

/-! ## Assembling -/

/-- What a client has of a message: its content, chunk by chunk, and its calls, each as one entry. -/
structure Assembled where
  contents : List String
  calls : List ToolCallDelta
  deriving DecidableEq, Repr

/-- Merges an entry into the call of its index, or adds it as another call. -/
def mergeEntry (d : ToolCallDelta) : List ToolCallDelta → List ToolCallDelta
  | [] => [d]
  | c :: cs =>
    if c.index = d.index then ⟨c.index, c.opening <|> d.opening, c.arguments ++ d.arguments⟩ :: cs
    else c :: mergeEntry d cs

/-- What a client has after one more chunk. -/
def Assembled.add (a : Assembled) : Stream.OpenAi.Delta → Assembled
  | .content text => ⟨a.contents ++ [text], a.calls⟩
  | .toolCall d => ⟨a.contents, mergeEntry d a.calls⟩

/-- What a client has of chunks that all can be read. -/
def assemble? (chunks : List Value) : Option Assembled := do
  let ds ← chunks.mapM added?
  return ds.foldl Assembled.add ⟨[], []⟩

/-- The chunks of the text that a command says. -/
def saidChunks (c : Command) : List String :=
  match c.directive with
  | .say content => chunkText content (effectiveSize content c.settings.chunkSize)
  | .toolCall _ _ => []

/-- The calls that commands make, where some were made before. -/
def madeCalls (callId : Nat → String) (calls : Nat) (cs : List Command) : List ToolCallDelta :=
  ((cs.filterMap Stream.call?).zipIdx calls).map fun c => ⟨c.2, some (callId c.2, c.1.1), c.1.2⟩

theorem foldl_content (a : Assembled) (texts : List String) :
    (texts.map Stream.OpenAi.Delta.content).foldl Assembled.add a = ⟨a.contents ++ texts, a.calls⟩ := by
  induction texts generalizing a with
  | nil => simp
  | cons text texts ih => simp [ih, Assembled.add]

theorem mergeEntry_of_lt {d : ToolCallDelta} {cs : List ToolCallDelta} (h : ∀ c ∈ cs, c.index < d.index)
    (later : List ToolCallDelta) : mergeEntry d (cs ++ later) = cs ++ mergeEntry d later := by
  induction cs with
  | nil => rfl
  | cons c cs ih =>
    have hne : c.index ≠ d.index := Nat.ne_of_lt (h c List.mem_cons_self)
    rw [List.cons_append, mergeEntry, if_neg hne, ih fun e he => h e (List.mem_cons_of_mem c he)]
    rfl

theorem foldl_callDeltas {a : Assembled} {index : Nat} (h : ∀ c ∈ a.calls, c.index < index) (callId toolName : String)
    {pieces : List String} (hne : pieces ≠ []) :
    (callDeltas index callId toolName pieces).foldl Assembled.add a =
      ⟨a.contents, a.calls ++ [⟨index, some (callId, toolName), String.join pieces⟩]⟩ := by
  have hrest : ∀ (rest : List String) (begun : String),
      (rest.map fun piece => Stream.OpenAi.Delta.toolCall ⟨index, none, piece⟩).foldl Assembled.add
          ⟨a.contents, a.calls ++ [⟨index, some (callId, toolName), begun⟩]⟩ =
        ⟨a.contents, a.calls ++ [⟨index, some (callId, toolName), begun ++ String.join rest⟩]⟩ := by
    intro rest
    induction rest with
    | nil => simp
    | cons piece rest ih =>
      intro begun
      rw [List.map_cons, List.foldl_cons, Assembled.add, mergeEntry_of_lt h, mergeEntry, if_pos rfl, String.join_cons,
        ← String.append_assoc]
      exact ih (begun ++ piece)
  obtain ⟨piece, rest, rfl⟩ := List.exists_cons_of_ne_nil hne
  have hfirst := mergeEntry_of_lt (d := ⟨index, some (callId, toolName), piece⟩) h []
  rw [List.append_nil] at hfirst
  rw [callDeltas, List.foldl_cons, Assembled.add, hfirst, String.join_cons]
  exact hrest rest piece

/-- Deltas that tell commands give a client the chunks of their texts and their calls. -/
theorem foldl_tells {callId : Nat → String} {calls : Nat} {cs : List Command} {ds : List Stream.OpenAi.Delta}
    (h : Tells callId calls cs ds) {a : Assembled} (ha : ∀ c ∈ a.calls, c.index < calls) :
    ds.foldl Assembled.add a = ⟨a.contents ++ cs.flatMap saidChunks, a.calls ++ madeCalls callId calls cs⟩ := by
  induction h generalizing a with
  | nil calls => simp [madeCalls]
  | say content settings h ih =>
    have hlater := ih (a := ⟨a.contents ++ chunkText content (effectiveSize content settings.chunkSize), a.calls⟩) ha
    rw [List.foldl_append, foldl_content, hlater, List.append_assoc]
    rfl
  | @toolCall toolName arguments settings calls cs ds pieces hne hjoin h ih =>
    have hindex : ∀ c ∈ a.calls ++ [⟨calls, some (callId calls, toolName), String.join pieces⟩],
        c.index < calls + 1 := by
      intro c hc
      rcases List.mem_append.1 hc with hc | hc
      · exact Nat.lt_succ_of_lt (ha c hc)
      · rw [List.mem_singleton.1 hc]
        exact Nat.lt_succ_self calls
    rw [List.foldl_append, foldl_callDeltas ha (callId calls) toolName hne, ih hindex, hjoin, List.append_assoc]
    rfl

/-! ## Messages -/

/-- The chunks of a message that tells commands. -/
structure IsMessage (id : String) (created : Nat) (model : String) (callId : Nat → String) (cs : List Command)
    (chunks : List Value) : Prop where
  ne_nil : chunks ≠ []
  names : ∀ chunk ∈ chunks, chunk.compact ≠ "[DONE]" ∧ chunk.member? "id" = some (.string id) ∧
    chunk.member? "created" = some (.nat created) ∧ chunk.member? "model" = some (.string model)
  role : ∀ i chunk, chunks[i]? = some chunk →
    deltaMember? chunk "role" = if i = 0 then some (.string "assistant") else none
  finish : ∀ i chunk, chunks[i]? = some chunk →
    (choice? chunk).bind (·.member? "finish_reason") =
      if i + 1 = chunks.length then some (.string (if cs.getLast?.any Command.isToolCall then "tool_calls" else "stop"))
      else some .null
  tells : ∃ ds, chunks.mapM added? = some ds ∧ Tells callId 0 cs ds
  assembled : assemble? chunks = some ⟨cs.flatMap saidChunks, madeCalls callId 0 cs⟩

theorem mapM_added? (chunks : List Chunk) : (chunks.map Chunk.toJson).mapM added? = some (chunks.map Chunk.delta) := by
  induction chunks with
  | nil => rfl
  | cons c chunks ih =>
    rw [List.map_cons, List.mapM_cons, added?_toJson, ih]
    rfl

theorem name_finishOf (cs : List Command) :
    (finishOf (cs.flatMap matter)).name = if cs.getLast?.any Command.isToolCall then "tool_calls" else "stop" := by
  have hlast := congrArg (Option.any fun b => b) (getLast?_flatMap_matter cs)
  rw [Option.any_map, Option.any_map] at hlast
  have hany : (cs.flatMap matter).getLast?.any Matter.isCall = cs.getLast?.any Command.isToolCall := hlast
  rw [finishOf, hany]
  cases cs.getLast?.any Command.isToolCall <;> rfl

/-- Chunks that tell commands, of which the first alone begins the message and the last alone ends it. -/
theorem isMessage_chunksOf (id : String) (created : Nat) (model : String) {callId : Nat → String} {cs : List Command}
    {ds : List Stream.OpenAi.Delta} (hne : ds ≠ []) (htells : Tells callId 0 cs ds) :
    IsMessage id created model callId cs
      ((chunksOf id created model (some (finishOf (cs.flatMap matter))) true ds).map Chunk.toJson) := by
  have hlength : ((chunksOf id created model (some (finishOf (cs.flatMap matter))) true ds).map Chunk.toJson).length =
      ds.length := by
    rw [List.length_map, length_chunksOf]
  have hadded : ((chunksOf id created model (some (finishOf (cs.flatMap matter))) true ds).map Chunk.toJson).mapM
      added? = some ds := by
    rw [mapM_added?, map_delta_chunksOf]
  have hchunk : ∀ i chunk,
      ((chunksOf id created model (some (finishOf (cs.flatMap matter))) true ds).map Chunk.toJson)[i]? = some chunk →
      ∃ d, chunk = Chunk.toJson ⟨id, created, model, i == 0, d,
        if i + 1 = ds.length then some (finishOf (cs.flatMap matter)) else none⟩ := by
    intro i chunk h
    rw [List.getElem?_map] at h
    obtain ⟨c, hc, rfl⟩ := Option.map_eq_some_iff.1 h
    obtain ⟨d, rfl⟩ := getElem?_chunksOf id created model hc
    exact ⟨d, rfl⟩
  exact {
    ne_nil := by
      rw [← List.length_pos_iff, hlength, List.length_pos_iff]
      exact hne
    names := by
      intro chunk hmem
      obtain ⟨i, h⟩ := List.getElem?_of_mem hmem
      obtain ⟨d, rfl⟩ := hchunk i chunk h
      exact ⟨compact_ne_doneData _, rfl, rfl, rfl⟩
    role := by
      intro i chunk h
      obtain ⟨d, rfl⟩ := hchunk i chunk h
      cases i <;> cases d <;> rfl
    finish := by
      intro i chunk h
      obtain ⟨d, rfl⟩ := hchunk i chunk h
      rw [hlength, ← name_finishOf]
      show some (Value.text? (Option.map Finish.name (if i + 1 = ds.length then _ else none))) = _
      split <;> rfl
    tells := ⟨ds, hadded, htells⟩
    assembled := by
      rw [assemble?, hadded]
      exact congrArg some (foldl_tells htells fun c hc => nomatch hc) }

/-- The chunks of a response. -/
def responseChunks (x : Context) (id : String) (cs : List Command) : List Chunk :=
  chunksOf id x.created x.model (some (finishOf (cs.flatMap matter))) true (unitDeltas 0 (units x cs))

theorem isMessage_responseChunks (x : Context) (id : String) {cs : List Command} (hcs : cs ≠ []) :
    IsMessage id x.created x.model x.callId cs ((responseChunks x id cs).map Chunk.toJson) := by
  have hne : unitDeltas 0 (units x cs) ≠ [] := by
    rw [← List.isEmpty_eq_false_iff, units, isEmpty_unitDeltas, flatMap_matter_isEmpty, List.isEmpty_eq_false_iff]
    exact hcs
  exact isMessage_chunksOf id x.created x.model hne (tells_unitDeltas x.callId true 0 cs)

theorem framesOf_responseChunks (x : Context) (id : String) (cs : List Command) :
    Framer.framesOf (State.initial id x.created x.model) (units x cs) =
      ((responseChunks x id cs).map Chunk.toJson).map (fun chunk => "data: " ++ chunk.compact ++ "\n\n") ++
        ["data: [DONE]\n\n"] := by
  have hevents : unitEvents (State.initial id x.created x.model) (units x cs) =
      (responseChunks x id cs).map .chunk :=
    unitEvents_place x.callId true (State.initial id x.created x.model) (cs.flatMap matter)
  rw [framesOf_eq, hevents, List.map_append, List.map_map, List.map_map]
  rfl

/-- What a completed stream has given its sink is the chunks of a message that tells the commands, or the
notice that there are none, and then the sign that the message is over. -/
theorem perform_assembles {κ : Type} [Sink κ] (x : Context) (id : String) (cs : List Command) (k : κ)
    (h : (perform k (Provider.openAi.schedule x id cs)).outcome = .completed) :
    ∃ chunks : List Value,
      IsMessage id x.created x.model x.callId (spoken cs) chunks ∧
      Sink.takeAll? k (chunks.map (fun chunk => "data: " ++ chunk.compact ++ "\n\n") ++ ["data: [DONE]\n\n"]) =
        some (perform k (Provider.openAi.schedule x id cs)).collector ∧
      (perform k (Provider.openAi.schedule x id cs)).taken = chunks.length + 1 := by
  have hrun := perform_delivers h
  have hframes : (Provider.openAi.schedule x id cs).filterMap Action.frame? =
      Framer.framesOf (State.initial id x.created x.model) (units x (spoken cs)) := by
    rw [Provider.schedule, ← schedule_spoken, frames_schedule x _ (spoken_ne_nil cs)]
  rw [framesOf_responseChunks] at hframes
  refine ⟨_, isMessage_responseChunks x id (spoken_ne_nil cs), ?_, ?_⟩
  · rw [← hframes]
    exact hrun.frames
  · rw [hrun.taken, hframes, List.length_append, List.length_map]
    rfl

/-- A text of two chunks, a call in two pieces and a call without arguments, streamed into a collector without a
limit. -/
theorem perform_assembles_three :
    let x : Context := ⟨"m", 0, 7, fun n => if n = 0 then "a" else "b", fun _ => "", fun _ => 0⟩
    let cs : List Command :=
      [⟨.say "hi", ⟨some 1, none, none⟩⟩, ⟨.toolCall "f" "\x7b\x7d", ⟨some 1, none, none⟩⟩,
        ⟨.toolCall "g" "", .unset⟩]
    let run := perform (Collector.empty none) (Provider.openAi.schedule x "id" cs)
    run.outcome = .completed ∧
      ∃ chunks : List Value, IsMessage "id" 7 "m" x.callId cs chunks ∧
        run.collector.frames.toList =
          chunks.map (fun chunk => "data: " ++ chunk.compact ++ "\n\n") ++ ["data: [DONE]\n\n"] ∧
        assemble? chunks = some ⟨["h", "i"], [⟨0, some ("a", "f"), "\x7b\x7d"⟩, ⟨1, some ("b", "g"), ""⟩]⟩ := by
  intro x cs run
  have hrun : run.outcome = .completed := (Collector.perform_unlimited _).outcome
  obtain ⟨chunks, hmessage, hframes, -⟩ := perform_assembles x "id" cs (Collector.empty none) hrun
  have hsaid : cs.flatMap saidChunks = ["h", "i"] := by
    simp [cs, saidChunks, chunkText, effectiveSize, pieces]
  refine ⟨hrun, chunks, hmessage, Collector.frames_of_takeAll? hframes, ?_⟩
  rw [hmessage.assembled]
  show some (Assembled.mk (cs.flatMap saidChunks) _) = _
  rw [hsaid]
  rfl

end ScriptedModel.Client.OpenAi
