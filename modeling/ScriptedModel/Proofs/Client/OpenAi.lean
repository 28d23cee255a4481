/-
A client of the OpenAI format: it reads the data of events as chunks until one says that the stream
is done, adds the text of each chunk, and merges the pieces of calls by their index.

Main statement: from the frames of a response it gets the transcript of its commands.
-/
import ScriptedModel.Field
import ScriptedModel.Proofs.Client.EventStream
import ScriptedModel.Proofs.Client.Transcript

namespace ScriptedModel.Client.OpenAi

open Json (Document Value)
open ScriptedModel.Stream (Context Framer OutputUnit units)
open ScriptedModel.Stream.OpenAi (Chunk Event State)

/-! ## The client -/

/-- What a chunk adds: text, or a piece of the arguments of a call; a first piece names the tool. -/
inductive Delta
  | text (added : String)
  | piece (index : Nat) (toolName? : Option String) (added : String)
  deriving DecidableEq, Repr

/-- The data of the event after which nothing is read. -/
def doneData : String := "[DONE]"

namespace Delta

/-- The text that a chunk adds. -/
def ofContent? (d : Document) : Option (List Delta) := d.string?.map fun added => [.text added]

/-- The piece of a call. -/
def ofCall? (d : Document) : Option Delta := do
  let index ← (← d.member? "index").count?
  let function ← d.member? "function"
  let added ← (← function.member? "arguments").string?
  return .piece index ((function.member? "name").bind Document.string?) added

/-- All that a chunk adds. -/
def ofChunk? (d : Document) : Option (List Delta) := do
  let delta ← (← (← d.member? "choices").first?).member? "delta"
  let texts ← Field.readOr [] ofContent? (delta.member? "content")
  let pieces ← Field.readOr [] (Document.list? ofCall?) (delta.member? "tool_calls")
  return texts ++ pieces

/-- All that events add before the stream is done. -/
def ofEvents? : List EventStream.Event → Option (List Delta)
  | [] => none
  | e :: es =>
    if e.data = doneData then some []
    else do
      let d ← Document.ofSource? (Json.sourceOf e.data)
      return (← ofChunk? d) ++ (← ofEvents? es)

end Delta

/-- Adds to the arguments of the call of an index, if there is one. -/
def addArguments? (index : Nat) (added : String) : Transcript String → Option (Transcript String)
  | .opening _ => none
  | .calling earlier toolName arguments said =>
    if index = earlier.count then some (.calling earlier toolName (arguments ++ added) said)
    else (addArguments? index added earlier).map fun t => .calling t toolName arguments said

/-- Adds a delta; a call has to have the index that comes next. -/
def add? (t : Transcript String) : Delta → Option (Transcript String)
  | .text added => some (t.say added)
  | .piece index (some toolName) added => if index = t.count then some (t.call toolName added) else none
  | .piece index none added => addArguments? index added t

/-- The transcript of the body of a reply. -/
def transcript? (body : String) : Option (Transcript String) := do
  let ds ← Delta.ofEvents? (EventStream.read body)
  ds.foldlM add? .empty

/-! ## Reading chunks -/

/-- What a client gets of what a chunk adds. -/
def Delta.ofSent : Stream.OpenAi.Delta → Delta
  | .content added => .text added
  | .toolCall d => .piece d.index (d.opening.map Prod.snd) d.arguments

theorem ofCall?_document (d : Stream.OpenAi.ToolCallDelta) :
    Delta.ofCall? d.toJson.document = some (.ofSent (.toolCall d)) := by
  obtain ⟨index, _ | ⟨callId, toolName⟩, arguments⟩ := d
  · simp [Delta.ofCall?, Document.member?_document, Stream.OpenAi.ToolCallDelta.toJson, Value.member?,
      Document.count?_document, Document.string?_document, Delta.ofSent]
  · simp [Delta.ofCall?, Document.member?_document, Stream.OpenAi.ToolCallDelta.toJson, Value.member?,
      Document.count?_document, Document.string?_document, Delta.ofSent]

theorem ofChunk?_document (c : Chunk) : Delta.ofChunk? c.toJson.document = some [.ofSent c.delta] := by
  have hdelta : Delta.ofChunk? c.toJson.document =
      (do
        let texts ← Field.readOr [] Delta.ofContent? (c.deltaJson.document.member? "content")
        let pieces ← Field.readOr [] (Document.list? Delta.ofCall?) (c.deltaJson.document.member? "tool_calls")
        return texts ++ pieces) := by
    rfl
  have hmembers : c.deltaJson.document.member? "content" =
        (match c.delta with | .content added => some (Value.string added).document | .toolCall _ => none) ∧
      c.deltaJson.document.member? "tool_calls" =
        (match c.delta with | .content _ => none | .toolCall d => some (Value.array [d.toJson]).document) := by
    rw [Document.member?_document, Document.member?_document, Chunk.deltaJson]
    cases c.first <;> cases c.delta <;> exact ⟨rfl, rfl⟩
  rw [hdelta, hmembers.1, hmembers.2]
  cases c.delta with
  | content added =>
    have htext : Delta.ofContent? (Value.string added).document = some [.text added] := by
      rw [Delta.ofContent?, Document.string?_document]
      rfl
    simp only [Field.readOr, htext]
    rfl
  | toolCall d =>
    have hpieces : Document.list? Delta.ofCall? (Value.array [d.toJson]).document = some [.ofSent (.toolCall d)] := by
      show [d.toJson.document].mapM Delta.ofCall? = _
      rw [List.mapM_cons, ofCall?_document]
      rfl
    simp only [Field.readOr, hpieces]
    rfl

/-! ## Reading events -/

theorem compact_ne_doneData (c : Chunk) : c.toJson.compact ≠ doneData := by
  intro h
  have hlist := congrArg String.toList h
  rw [Value.compact, String.toList_ofList] at hlist
  -- An object begins with a brace, the end of the stream with a bracket.
  have hhead : some '{' = doneData.toList.head? := congrArg List.head? hlist
  exact absurd hhead (by decide)

/-- The event that a client reads where one was sent. -/
def received : Event → EventStream.Event
  | .chunk c => ⟨"message", c.toJson.compact⟩
  | .done => ⟨"message", doneData⟩

theorem events_frame (e : Event) (cs : List Char) :
    EventStream.events .none (EventStream.lines (e.frame.toList ++ cs)) =
      received e :: EventStream.events .none (EventStream.lines cs) := by
  cases e with
  | chunk c => exact EventStream.events_message (EventStream.isLine_compact c.toJson) cs
  | done =>
    have hline : EventStream.IsLine doneData.toList := by decide
    exact EventStream.events_message hline cs

/-- What an event adds. -/
def deltas : Event → List Delta
  | .chunk c => [.ofSent c.delta]
  | .done => []

theorem ofEvents?_received {es : List Event} (h : .done ∉ es) :
    Delta.ofEvents? ((es ++ [Event.done]).map received) = some (es.flatMap deltas) := by
  induction es with
  | nil => rfl
  | cons e es ih =>
    cases e with
    | done => exact absurd List.mem_cons_self h
    | chunk c =>
      have hrest := ih fun hm => h (List.mem_cons_of_mem _ hm)
      have hdoc : Document.ofSource? (Json.sourceOf (received (.chunk c)).data) = some c.toJson.document :=
        c.toJson.ofSource?_compact
      have hne : (received (.chunk c)).data ≠ doneData := compact_ne_doneData c
      rw [List.cons_append, List.map_cons, Delta.ofEvents?, if_neg hne, hdoc, hrest]
      simp only [Option.bind_eq_bind, Option.bind_some, ofChunk?_document]
      rfl

/-! ## Events of units -/

/-- The state after a unit, and the events of the unit. -/
def step (s : State) : OutputUnit → State × List Event
  | .text u => (s, s.textEvents u)
  | .tool u => ({ s with toolCalls := s.toolCalls + 1 }, s.toolEvents u)

/-- The events of units. -/
def unitEvents : State → List OutputUnit → List Event
  | _, [] => []
  | s, u :: us => (step s u).2 ++ unitEvents (step s u).1 us

theorem framesOf_eq (s : State) (us : List OutputUnit) :
    Framer.framesOf s us = (unitEvents s us ++ [Event.done]).map Event.frame := by
  induction us generalizing s with
  | nil => rfl
  | cons u us ih =>
    have hanswer : Framer.answer s u = ((step s u).1, (step s u).2.map Event.frame) := by
      cases u <;> rfl
    rw [Framer.framesOf_cons, hanswer, ih, unitEvents, List.append_assoc]
    exact List.map_append.symm

theorem done_notMem_laterPieces (s : State) (terminal : Bool) (pieces : List String) :
    .done ∉ s.laterPieces terminal pieces := by
  induction pieces with
  | nil => exact List.not_mem_nil
  | cons piece pieces ih =>
    intro h
    rcases List.mem_cons.1 h with h | h
    · cases h
    · exact ih h

theorem done_notMem_step (s : State) (u : OutputUnit) : .done ∉ (step s u).2 := by
  cases u with
  | text u =>
    intro h
    cases List.mem_singleton.1 h
  | tool u =>
    show .done ∉ s.toolEvents u
    unfold State.toolEvents
    split
    · exact List.not_mem_nil
    · intro h
      rcases List.mem_cons.1 h with h | h
      · cases h
      · exact done_notMem_laterPieces _ _ _ h

theorem done_notMem_unitEvents (s : State) (us : List OutputUnit) : .done ∉ unitEvents s us := by
  induction us generalizing s with
  | nil => exact List.not_mem_nil
  | cons u us ih =>
    intro h
    rcases List.mem_append.1 h with h | h
    · exact done_notMem_step s u h
    · exact ih _ h

theorem foldlM_laterPieces (s : State) (terminal : Bool) (pieces : List String) (t : Transcript String)
    (h : t.count = s.toolCalls) (toolName arguments : String) :
    ((s.laterPieces terminal pieces).flatMap deltas).foldlM add? (t.call toolName arguments) =
      some (t.call toolName (arguments ++ String.join pieces)) := by
  induction pieces generalizing arguments with
  | nil =>
    rw [String.join_nil, String.append_empty]
    rfl
  | cons piece pieces ih =>
    have hadd : add? (t.call toolName arguments) (.piece s.toolCalls none piece) =
        some (t.call toolName (arguments ++ piece)) := by
      show (if s.toolCalls = t.count then _ else _) = _
      rw [if_pos h.symm]
      rfl
    show (Delta.piece s.toolCalls none piece :: (s.laterPieces terminal pieces).flatMap deltas).foldlM add? _ = _
    rw [List.foldlM_cons, hadd, String.join_cons, ← String.append_assoc]
    exact ih (arguments ++ piece)

/-- What the events of units add is what the units tell. -/
theorem foldlM_unitEvents (s : State) (us : List OutputUnit) (t : Transcript String) (h : t.count = s.toolCalls) :
    ((unitEvents s us).flatMap deltas).foldlM add? t = some (us.foldl (Transcript.tellUnit fun raw => raw) t) := by
  induction us generalizing s t with
  | nil => rfl
  | cons u us ih =>
    rw [unitEvents, List.flatMap_append, List.foldlM_append]
    cases u with
    | text u =>
      have hcount : (t.say u.text).count = s.toolCalls := (t.count_say u.text).trans h
      exact ih s (t.say u.text) hcount
    | tool u =>
      have hcount : (t.call u.toolName u.arguments).count = s.toolCalls + 1 := congrArg (· + 1) h
      have htool : ((s.toolEvents u).flatMap deltas).foldlM add? t = some (t.call u.toolName u.arguments) := by
        have hjoin := Stream.join_chunkText u.arguments u.chunkSize
        have hne := Stream.chunkText_ne_nil u.arguments u.chunkSize
        unfold State.toolEvents
        generalize Stream.chunkText u.arguments u.chunkSize = pieces at hjoin hne ⊢
        -- The first piece makes the call, and the others add to it.
        obtain ⟨piece, rest, rfl⟩ := List.exists_cons_of_ne_nil hne
        have hadd : add? t (.piece s.toolCalls (some u.toolName) piece) = some (t.call u.toolName piece) :=
          if_pos h.symm
        show (Delta.piece s.toolCalls (some u.toolName) piece ::
          (s.laterPieces u.terminal rest).flatMap deltas).foldlM add? t = _
        rw [List.foldlM_cons, hadd]
        show ((s.laterPieces u.terminal rest).flatMap deltas).foldlM add? (t.call u.toolName piece) = _
        rw [foldlM_laterPieces s u.terminal rest t h, ← String.join_cons, hjoin]
      show ((s.toolEvents u).flatMap deltas).foldlM add? t >>= _ = _
      rw [htool]
      exact ih _ (t.call u.toolName u.arguments) hcount

/-- A client gets of the frames of a response what its commands tell. -/
theorem transcript?_frames (x : Context) (id : String) (created : Nat) (model : String) (cs : List Script.Command) :
    transcript? (String.join (Framer.framesOf (State.initial id created model) (units x cs))) =
      some ((cs.map Script.Command.directive).foldl (Transcript.tell fun raw => raw) .empty) := by
  have hread := EventStream.read_join Event.frame received
    (unitEvents (State.initial id created model) (units x cs) ++ [Event.done]) fun e _ => events_frame e
  rw [transcript?, framesOf_eq, hread, ofEvents?_received (done_notMem_unitEvents _ _)]
  show List.foldlM add? _ _ = _
  rw [foldlM_unitEvents (State.initial id created model) (units x cs) .empty rfl, Transcript.foldl_units]

end ScriptedModel.Client.OpenAi
