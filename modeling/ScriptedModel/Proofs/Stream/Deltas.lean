/-
What an OpenAI message says, chunk by chunk. Each chunk has one delta: content, or a piece of a call. A
call has one piece at least, and the first of its pieces alone names it and its tool.

Main statement: the deltas of the units of commands tell the commands, in order and call by call; and
the events of a unit are the chunks of its deltas, of which the last ends the message if the unit does.
-/
import ScriptedModel.Proofs.Stream.Units

namespace ScriptedModel.Stream.OpenAi

open Script (Command Settings)

/-! ## Deltas of commands -/

/-- The deltas of a call: its first piece names it and its tool. -/
def callDeltas (index : Nat) (callId toolName : String) : List String → List Delta
  | [] => []
  | piece :: rest =>
    .toolCall ⟨index, some (callId, toolName), piece⟩ :: rest.map fun piece => .toolCall ⟨index, none, piece⟩

/-- Deltas that tell commands, where some calls were made before: the chunks of each text, and for each
call its pieces one after another, under the index that comes next. -/
inductive Tells (callId : Nat → String) : Nat → List Command → List Delta → Prop
  | nil (calls : Nat) : Tells callId calls [] []
  | say (content : String) (settings : Settings) {calls : Nat} {cs : List Command} {ds : List Delta}
    (h : Tells callId calls cs ds) :
    Tells callId calls (⟨.say content, settings⟩ :: cs)
      ((chunkText content (effectiveSize content settings.chunkSize)).map .content ++ ds)
  | toolCall (toolName arguments : String) (settings : Settings) {calls : Nat} {cs : List Command} {ds : List Delta}
    {pieces : List String} (hne : pieces ≠ []) (hjoin : String.join pieces = arguments)
    (h : Tells callId (calls + 1) cs ds) :
    Tells callId calls (⟨.toolCall toolName arguments, settings⟩ :: cs)
      (callDeltas calls (callId calls) toolName pieces ++ ds)

/-- The deltas of units, where some calls were made before. -/
def unitDeltas : Nat → List OutputUnit → List Delta
  | _, [] => []
  | calls, .text u :: us => .content u.text :: unitDeltas calls us
  | calls, .tool u :: us =>
    callDeltas calls u.callId u.toolName (chunkText u.arguments u.chunkSize) ++ unitDeltas (calls + 1) us

theorem unitDeltas_chunks (callId : Nat → String) (calls : Nat) (later : List Matter) (chunks : List String)
    (first : Bool) :
    unitDeltas calls (place callId first calls (chunks.map .text ++ later)) =
      chunks.map .content ++ unitDeltas calls (place callId (first && chunks.isEmpty) calls later) := by
  induction chunks generalizing first with
  | nil => simp
  | cons chunk chunks ih =>
    show Delta.content chunk :: unitDeltas calls (place callId false calls (chunks.map .text ++ later)) = _
    rw [ih, List.isEmpty_cons, Bool.and_false, Bool.false_and]
    rfl

theorem tells_unitDeltas (callId : Nat → String) (first : Bool) (calls : Nat) (cs : List Command) :
    Tells callId calls cs (unitDeltas calls (place callId first calls (cs.flatMap matter))) := by
  induction cs generalizing first calls with
  | nil => exact .nil calls
  | cons c cs ih =>
    obtain ⟨content | ⟨toolName, arguments⟩, settings⟩ := c
    · show Tells callId calls _ (unitDeltas calls (place callId first calls (List.map .text _ ++ cs.flatMap matter)))
      rw [unitDeltas_chunks]
      exact .say content settings (ih _ calls)
    · exact .toolCall toolName arguments settings (chunkText_ne_nil _ _) (join_chunkText _ _) (ih false (calls + 1))

/-! ## Chunks of deltas -/

section Chunks

variable (id : String) (created : Nat) (model : String)

/-- The chunks of deltas: where the message begins, the first of them is its first, and where it ends,
the last of them has the reason. -/
def chunksOf (finish : Option Finish) : Bool → List Delta → List Chunk
  | _, [] => []
  | first, d :: ds =>
    ⟨id, created, model, first, d, if ds.isEmpty then finish else none⟩ :: chunksOf finish false ds

theorem chunksOf_append (finish : Option Finish) (first : Bool) {ds : List Delta} (hds : ds ≠ []) (es : List Delta) :
    chunksOf id created model finish first (ds ++ es) =
      chunksOf id created model (if es.isEmpty then finish else none) first ds ++
        chunksOf id created model finish false es := by
  induction ds generalizing first with
  | nil => exact absurd rfl hds
  | cons d ds ih =>
    cases ds with
    | nil => simp [chunksOf]
    | cons e ds =>
      rw [List.cons_append, chunksOf, ih false (List.cons_ne_nil e ds)]
      rfl

theorem length_chunksOf (finish : Option Finish) (first : Bool) (ds : List Delta) :
    (chunksOf id created model finish first ds).length = ds.length := by
  fun_induction chunksOf id created model finish first ds with
  | case1 => rfl
  | case2 first d ds ih => exact congrArg (· + 1) ih

theorem map_delta_chunksOf (finish : Option Finish) (first : Bool) (ds : List Delta) :
    (chunksOf id created model finish first ds).map Chunk.delta = ds := by
  fun_induction chunksOf id created model finish first ds with
  | case1 => rfl
  | case2 first d ds ih => exact congrArg (d :: ·) ih

theorem getElem?_chunksOf {finish : Option Finish} {first : Bool} {ds : List Delta} {i : Nat} {c : Chunk}
    (h : (chunksOf id created model finish first ds)[i]? = some c) :
    ∃ d, c = ⟨id, created, model, first && i == 0, d, if i + 1 = ds.length then finish else none⟩ := by
  fun_induction chunksOf id created model finish first ds generalizing i with
  | case1 => cases h
  | case2 first d ds ih =>
    cases i with
    | zero =>
      cases h
      refine ⟨d, ?_⟩
      cases ds <;> simp
    | succ i =>
      obtain ⟨d', rfl⟩ := ih h
      exact ⟨d', by simp⟩

end Chunks

/-! ## Chunks of units -/

theorem laterPieces_eq (s : State) (terminal : Bool) (rest : List String) :
    s.laterPieces terminal rest =
      (chunksOf s.id s.created s.model (if terminal then some .toolCalls else none) false
        (rest.map fun piece => .toolCall ⟨s.toolCalls, none, piece⟩)).map .chunk := by
  induction rest with
  | nil => rfl
  | cons piece rest ih =>
    rw [State.laterPieces, ih]
    cases terminal <;> cases rest <;> rfl

theorem toolEvents_eq (s : State) (u : ToolUnit) :
    s.toolEvents u =
      (chunksOf s.id s.created s.model (if u.terminal then some .toolCalls else none) u.first
        (callDeltas s.toolCalls u.callId u.toolName (chunkText u.arguments u.chunkSize))).map .chunk := by
  unfold State.toolEvents
  cases chunkText u.arguments u.chunkSize with
  | nil => rfl
  | cons piece rest =>
    show _ :: s.laterPieces u.terminal rest = _
    rw [laterPieces_eq]
    cases u.terminal <;> cases rest <;> rfl

/-- Why a message ends that puts out matter. -/
def finishOf (ms : List Matter) : Finish := if ms.getLast?.any Matter.isCall then .toolCalls else .stop

theorem finishOf_cons (m : Matter) {ms : List Matter} (hms : ms ≠ []) : finishOf (m :: ms) = finishOf ms := by
  rw [finishOf, finishOf, List.getLast?_cons_of_ne_nil hms]

theorem callDeltas_ne_nil (index : Nat) (callId toolName : String) {pieces : List String} (h : pieces ≠ []) :
    callDeltas index callId toolName pieces ≠ [] := by
  cases pieces with
  | nil => exact absurd rfl h
  | cons piece rest => exact List.cons_ne_nil _ _

theorem isEmpty_unitDeltas (callId : Nat → String) (first : Bool) (calls : Nat) (ms : List Matter) :
    (unitDeltas calls (place callId first calls ms)).isEmpty = ms.isEmpty := by
  cases ms with
  | nil => rfl
  | cons m ms =>
    cases m with
    | text chunk => rfl
    | tool toolName arguments size =>
      have h := callDeltas_ne_nil calls (callId calls) toolName (chunkText_ne_nil arguments size)
      simp [place, unitDeltas, h]

end ScriptedModel.Stream.OpenAi
