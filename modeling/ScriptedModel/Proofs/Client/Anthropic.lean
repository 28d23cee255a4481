/-
A client of the Anthropic format: it reads the data of events, opens the content blocks that start
under the index that comes next, and adds to the block of an index what comes for it.

Main statement: from the frames of a response it gets the transcript of its commands.

The blocks of a client are kept with the last first; of the events of a message they are the blocks
of the message.
-/
import ScriptedModel.Proofs.Client.EventStream
import ScriptedModel.Proofs.Client.Transcript
import ScriptedModel.Proofs.Stream.Lifecycle

namespace ScriptedModel.Client.Anthropic

open Json (Document Value)
open ScriptedModel.Stream (Context Framer OutputUnit units)
open ScriptedModel.Stream.Anthropic (Event FilledBlock State blockEvents messageEvents push unitBlocks)

/-! ## The client -/

/-- A content block: the tool that it calls, if it is a call, and what was added to it. -/
structure Block where
  toolName? : Option String
  added : String
  deriving DecidableEq, Repr

/-- What an event does to the content of a message. -/
inductive Change
  | start (index : Nat) (block : Block)
  | add (index : Nat) (added : String)
  | none
  deriving DecidableEq, Repr

namespace Change

/-- The text that a member of an object is. -/
def text? (name : String) (d : Document) : Option String := (d.member? name).bind Document.string?

/-- The block that a start shows; a call has no arguments yet. -/
def block? (d : Document) : Option Block := do
  match ← text? "type" d with
  | "text" => return ⟨Option.none, ← text? "text" d⟩
  | "tool_use" => return ⟨some (← text? "name" d), ""⟩
  | _ => Option.none

/-- The text or the arguments that a delta adds. -/
def delta? (d : Document) : Option String := do
  match ← text? "type" d with
  | "text_delta" => text? "text" d
  | "input_json_delta" => text? "partial_json" d
  | _ => Option.none

/-- The change that an event makes; most make none. -/
def ofEvent? (d : Document) : Option Change := do
  match ← text? "type" d with
  | "content_block_start" => return .start (← (← d.member? "index").count?) (← block? (← d.member? "content_block"))
  | "content_block_delta" => return .add (← (← d.member? "index").count?) (← delta? (← d.member? "delta"))
  | _ => return .none

end Change

/-- Adds to the block of an index, if there is one. -/
def addTo? (index : Nat) (added : String) : List Block → Option (List Block)
  | [] => none
  | b :: earlier =>
    if index = earlier.length then some ({ b with added := b.added ++ added } :: earlier)
    else (addTo? index added earlier).map (b :: ·)

/-- The blocks after a change; a block has to start under the index that comes next. -/
def change? (bs : List Block) : Change → Option (List Block)
  | .start index block => if index = bs.length then some (block :: bs) else none
  | .add index added => addTo? index added bs
  | .none => some bs

/-- Adds a block to a transcript. -/
def tellBlock (t : Transcript String) (b : Block) : Transcript String :=
  match b.toolName? with
  | none => t.say b.added
  | some toolName => t.call toolName b.added

/-- The transcript of the body of a reply. -/
def transcript? (body : String) : Option (Transcript String) := do
  let changes ← (EventStream.read body).mapM fun e => (Document.ofSource? (Json.sourceOf e.data)).bind Change.ofEvent?
  let blocks ← changes.foldlM change? []
  return blocks.reverse.foldl tellBlock .empty

/-! ## Reading events -/

/-- The block that a client opens when one starts. -/
def opened : Stream.Anthropic.Block → Block
  | .text => ⟨none, ""⟩
  | .toolUse _ toolName => ⟨some toolName, ""⟩

/-- The change that an event makes. -/
def change : Event → Change
  | .blockStart index block => .start index (opened block)
  | .blockDelta index delta => .add index delta.added
  | _ => .none

/-- The event that a client reads where one was sent. -/
def received (e : Event) : EventStream.Event := ⟨e.name, e.toJson.compact⟩

theorem text?_document (v : Value) (name : String) :
    Change.text? name v.document = (v.member? name).bind fun w => w.document.string? := by
  rw [Change.text?, Document.member?_document, Option.bind_map]
  rfl

theorem block?_document (b : Stream.Anthropic.Block) : Change.block? b.toJson.document = some (opened b) := by
  cases b with
  | text =>
    simp [Change.block?, text?_document, Stream.Anthropic.Block.toJson, Value.member?, Document.string?_document,
      opened]
  | toolUse callId toolName =>
    simp [Change.block?, text?_document, Stream.Anthropic.Block.toJson, Value.member?, Document.string?_document,
      opened]

theorem delta?_document (d : Stream.Anthropic.Delta) : Change.delta? d.toJson.document = some d.added := by
  cases d with
  | text added =>
    simp [Change.delta?, text?_document, Stream.Anthropic.Delta.toJson, Value.member?, Document.string?_document,
      Stream.Anthropic.Delta.added]
  | inputJson raw =>
    simp [Change.delta?, text?_document, Stream.Anthropic.Delta.toJson, Value.member?, Document.string?_document,
      Stream.Anthropic.Delta.added]

theorem ofEvent?_document (e : Event) : Change.ofEvent? e.toJson.document = some (change e) := by
  have htype : Change.text? "type" e.toJson.document = some e.name := by
    rw [text?_document]
    cases e <;> exact Document.string?_document _
  rw [Change.ofEvent?, htype]
  cases e with
  | blockStart index block =>
    have hindex : (Event.blockStart index block).toJson.document.member? "index" =
        some (Value.nat index).document := rfl
    have hblock : (Event.blockStart index block).toJson.document.member? "content_block" =
        some block.toJson.document := rfl
    simp [Event.name, hindex, hblock, Document.count?_document, block?_document, change]
  | blockDelta index delta =>
    have hindex : (Event.blockDelta index delta).toJson.document.member? "index" =
        some (Value.nat index).document := rfl
    have hdelta : (Event.blockDelta index delta).toJson.document.member? "delta" =
        some delta.toJson.document := rfl
    simp [Event.name, hindex, hdelta, Document.count?_document, delta?_document, change]
  | messageStart id model => rfl
  | blockStop index => rfl
  | messageDelta reason tokens => rfl
  | messageStop => rfl

theorem events_frame (e : Event) (cs : List Char) :
    EventStream.events .none (EventStream.lines (e.frame.toList ++ cs)) =
      received e :: EventStream.events .none (EventStream.lines cs) := by
  have hname : EventStream.IsLine e.name.toList ∧ e.name ≠ "" := by
    cases e <;> rw [Event.name] <;> decide
  exact EventStream.events_named hname.1 hname.2 (EventStream.isLine_compact e.toJson) cs

theorem changes_received (es : List Event) :
    (es.map received).mapM (fun e => (Document.ofSource? (Json.sourceOf e.data)).bind Change.ofEvent?) =
      some (es.map change) := by
  induction es with
  | nil => rfl
  | cons e es ih =>
    have hdoc : Document.ofSource? (Json.sourceOf (received e).data) = some e.toJson.document :=
      e.toJson.ofSource?_compact
    rw [List.map_cons, List.mapM_cons, hdoc, Option.bind_some, ofEvent?_document, ih]
    rfl

/-! ## Blocks of events -/

/-- The block that a client has when one is filled. -/
def filled (b : FilledBlock) : Block := ⟨(opened b.start).toolName?, b.added⟩

theorem foldlM_deltas (toolName? : Option String) (added : String) (earlier : List Block)
    (ds : List Stream.Anthropic.Delta) :
    ((ds.map (Event.blockDelta earlier.length)).map change).foldlM change? (⟨toolName?, added⟩ :: earlier) =
      some (⟨toolName?, added ++ String.join (ds.map Stream.Anthropic.Delta.added)⟩ :: earlier) := by
  induction ds generalizing added with
  | nil =>
    show some _ = some (⟨toolName?, added ++ ""⟩ :: earlier)
    rw [String.append_empty]
  | cons d ds ih =>
    have hadd : change? (⟨toolName?, added⟩ :: earlier) (.add earlier.length d.added) =
        some (⟨toolName?, added ++ d.added⟩ :: earlier) := if_pos rfl
    rw [List.map_cons, List.map_cons, List.foldlM_cons, change, hadd, List.map_cons, String.join_cons,
      ← String.append_assoc]
    exact ih (added ++ d.added)

theorem foldlM_events (b : FilledBlock) (earlier : List Block) :
    ((b.events earlier.length).map change).foldlM change? earlier = some (filled b :: earlier) := by
  have hstart : change? earlier (.start earlier.length (opened b.start)) = some (opened b.start :: earlier) :=
    if_pos rfl
  -- Nothing is in a block when it opens.
  have hopened : opened b.start = ⟨(opened b.start).toolName?, ""⟩ := by
    cases b.start <;> rfl
  rw [FilledBlock.events, List.cons_append, List.map_cons, List.foldlM_cons, change, hstart, hopened]
  show ((b.deltas.map (Event.blockDelta earlier.length) ++ [Event.blockStop earlier.length]).map change).foldlM
    change? (⟨(opened b.start).toolName?, ""⟩ :: earlier) = _
  rw [List.map_append, List.foldlM_append, foldlM_deltas, String.empty_append]
  rfl

theorem foldlM_blockEvents (bs : List FilledBlock) (earlier : List Block) :
    ((blockEvents earlier.length bs).map change).foldlM change? earlier =
      some ((bs.map filled).reverse ++ earlier) := by
  induction bs generalizing earlier with
  | nil => rfl
  | cons b bs ih =>
    rw [blockEvents, List.map_append, List.foldlM_append, foldlM_events]
    show ((blockEvents (filled b :: earlier).length bs).map change).foldlM change? (filled b :: earlier) = _
    rw [ih, List.map_cons, List.reverse_cons, List.append_assoc]
    rfl

/-- The events of a message give the client its blocks. -/
theorem foldlM_messageEvents (id model : String) (bs : List FilledBlock) (reason : Stream.Anthropic.StopReason)
    (tokens : Nat) :
    ((messageEvents id model bs reason tokens).map change).foldlM change? [] = some (bs.map filled).reverse := by
  have hblocks := foldlM_blockEvents bs []
  rw [List.append_nil] at hblocks
  show ((blockEvents 0 bs ++ [Event.messageDelta reason tokens, Event.messageStop]).map change).foldlM change? [] = _
  rw [List.map_append, List.foldlM_append]
  -- What starts and ends a message changes no block.
  show List.foldlM change? [] ((blockEvents ([] : List Block).length bs).map change) >>= _ = _
  rw [hblocks]
  rfl

/-! ## Blocks of units -/

theorem foldl_push (ds : List Stream.Anthropic.Delta) (bs : List FilledBlock) (t : Transcript String) :
    ((push ds bs).map filled).foldl tellBlock t =
      (bs.map filled).foldl tellBlock (t.say (String.join (ds.map Stream.Anthropic.Delta.added))) := by
  rcases bs with _ | ⟨⟨_ | ⟨callId, toolName⟩, es⟩, bs⟩
  · rfl
  · show (bs.map filled).foldl tellBlock (t.say (String.join ((ds ++ es).map Stream.Anthropic.Delta.added))) =
      (bs.map filled).foldl tellBlock ((t.say _).say (String.join (es.map Stream.Anthropic.Delta.added)))
    rw [Transcript.say_say, List.map_append, String.join_append]
  · rfl

/-- The blocks of units tell what the units tell. -/
theorem foldl_unitBlocks (us : List OutputUnit) (t : Transcript String) :
    ((unitBlocks us).map filled).foldl tellBlock t = us.foldl (Transcript.tellUnit fun raw => raw) t := by
  induction us generalizing t with
  | nil => rfl
  | cons u us ih =>
    cases u with
    | text u =>
      rw [unitBlocks, foldl_push, ih]
      show us.foldl _ (t.say (String.join [u.text])) = us.foldl _ (t.say u.text)
      rw [String.join_cons, String.join_nil, String.append_empty]
    | tool u =>
      rw [unitBlocks, List.map_cons, List.foldl_cons, ih]
      show us.foldl _ (t.call u.toolName (String.join [u.arguments])) = us.foldl _ (t.call u.toolName u.arguments)
      rw [String.join_cons, String.join_nil, String.append_empty]

/-- A client gets of the frames of a response what its commands tell. -/
theorem transcript?_frames (x : Context) (id model : String) {cs : List Script.Command} (hcs : cs ≠ []) :
    transcript? (String.join (Framer.framesOf (State.initial id model) (units x cs))) =
      some ((cs.map Script.Command.directive).foldl (Transcript.tell fun raw => raw) .empty) := by
  have hevents := Stream.Anthropic.events_initial id model (Stream.units_ne_nil x hcs)
  rw [Stream.Anthropic.State.framesOf_eq, hevents, transcript?,
    EventStream.read_join Event.frame received _ fun e _ => events_frame e]
  generalize hes : messageEvents id model (unitBlocks (units x cs)) _ _ = es
  rw [changes_received, ← hes]
  simp only [Option.bind_eq_bind, Option.bind_some, foldlM_messageEvents, List.reverse_reverse, foldl_unitBlocks]
  exact congrArg some (Transcript.foldl_units (fun raw => raw) x .empty cs)

end ScriptedModel.Client.Anthropic
