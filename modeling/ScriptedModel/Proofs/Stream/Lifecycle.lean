/-
The life of an Anthropic message: it starts, its content blocks are opened, filled and stopped one
after another under the indices 0, 1, 2, …, and it ends. Consecutive texts share a block; every
call has one of its own.

Main statement: what a completed stream has given its sink is exactly such a message, whose blocks
are those of the commands.

The invariant is on the open block: from any state, the events to come are those that are left of
the blocks of the units to come, where a text block that is open goes on with the text that comes
first.
-/
import Mathlib.Data.List.Chain
import Mathlib.Data.List.Forall2
import ScriptedModel.Proofs.Stream.Units

namespace ScriptedModel.Stream.Anthropic

open Script (Command Settings)

/-! ## Messages -/

/-- Whether an event adds to a block. -/
def Event.isBlockDelta : Event → Bool
  | .blockDelta _ _ => true
  | _ => false

/-- The text that is added to a block. -/
def Delta.added : Delta → String
  | .text added => added
  | .inputJson raw => raw

/-- A content block and what is added to it. -/
structure FilledBlock where
  start : Block
  deltas : List Delta
  deriving DecidableEq, Repr

namespace FilledBlock

/-- The events of a block under an index. -/
def events (index : Nat) (b : FilledBlock) : List Event :=
  .blockStart index b.start :: b.deltas.map (.blockDelta index) ++ [.blockStop index]

/-- All that is added to a block. -/
def added (b : FilledBlock) : String := String.join (b.deltas.map Delta.added)

/-- The call that a block makes: its identifier, the tool and the arguments. -/
def call? (b : FilledBlock) : Option (String × String × String) :=
  match b.start with
  | .text => none
  | .toolUse callId toolName => some (callId, toolName, b.added)

end FilledBlock

/-- The events of blocks, numbered from an index on. -/
def blockEvents : Nat → List FilledBlock → List Event
  | _, [] => []
  | index, b :: bs => b.events index ++ blockEvents (index + 1) bs

/-- The events of a message. -/
def messageEvents (id model : String) (bs : List FilledBlock) (reason : StopReason) (tokens : Nat) : List Event :=
  .messageStart id model :: blockEvents 0 bs ++ [.messageDelta reason tokens, .messageStop]

/-- Commands that share a block, and the block: texts, whose chunks are added in order, or one call,
whose arguments are added as they are. -/
inductive Shares : List Command → FilledBlock → Prop
  | texts (said : List (String × Settings)) (h : said ≠ []) :
    Shares (said.map fun c => ⟨.say c.1, c.2⟩)
      ⟨.text, (said.flatMap fun c => chunkText c.1 (effectiveSize c.1 c.2.chunkSize)).map .text⟩
  | call (toolName arguments : String) (settings : Settings) (callId : String) :
    Shares [⟨.toolCall toolName arguments, settings⟩] ⟨.toolUse callId toolName, [.inputJson arguments]⟩

/-- What a command puts out, as one text. -/
def output (c : Command) : String :=
  match c.directive with
  | .say content => content
  | .toolCall _ arguments => arguments

/-- The events of a message that tells commands, and the responses stored with it. The commands fall
into groups, each of which shares a block; no two text blocks are adjacent. -/
def Tells (id model : String) (cs : List Command) (stored : List StoredResponse) (events : List Event) : Prop :=
  ∃ groups blocks reason tokens,
    events = messageEvents id model blocks reason tokens ∧
    groups.flatten = cs ∧
    List.Forall₂ Shares groups blocks ∧
    blocks.IsChain (fun a b => ¬ (a.start = .text ∧ b.start = .text)) ∧
    List.Forall₂ (fun g b => b.deltas ≠ [] ∧ b.added = String.join (g.map output)) groups blocks ∧
    (stored.map fun r => (r.callId, r.toolName, r.arguments)) = blocks.filterMap FilledBlock.call? ∧
    tokens = events.countP Event.isBlockDelta ∧
    (reason = .toolUse ↔ cs.getLast?.any Command.isToolCall)

/-! ## Events of units -/

namespace State

/-- The state after a unit, and the events of the unit. -/
def step (s : State) : OutputUnit → State × List Event
  | .text u => (s.afterUnit s.block.toText.state false, s.textEvents u)
  | .tool u => (s.afterUnit s.block.toTool.state true, s.toolEvents u)

/-- The state after units, and the events of the units. -/
def steps : State → List OutputUnit → State × List Event
  | s, [] => (s, [])
  | s, u :: us => ((steps (s.step u).1 us).1, (s.step u).2 ++ (steps (s.step u).1 us).2)

theorem answer_eq (s : State) (u : OutputUnit) :
    Framer.answer s u = ((s.step u).1, (s.step u).2.map Event.frame) := by
  cases u <;> rfl

theorem answerAll_eq (s : State) (us : List OutputUnit) :
    Framer.answerAll s us = ((s.steps us).1, (s.steps us).2.map Event.frame) := by
  induction us generalizing s with
  | nil => rfl
  | cons u us ih => rw [Framer.answerAll, answer_eq, ih, steps, List.map_append]

/-- The frames of a response are those of the events of its units and those of its end. -/
theorem framesOf_eq (s : State) (us : List OutputUnit) :
    Framer.framesOf s us = ((s.steps us).2 ++ (s.steps us).1.closeEvents).map Event.frame := by
  rw [Framer.framesOf, answerAll_eq, List.map_append]
  rfl

/-! ## What units leave behind -/

theorem step_outputTokens (s : State) (u : OutputUnit) :
    (s.step u).1.outputTokens = s.outputTokens + (s.step u).2.countP Event.isBlockDelta := by
  cases u with
  | text u =>
    show s.outputTokens + 1 = s.outputTokens + (s.textEvents u).countP Event.isBlockDelta
    unfold textEvents startEvents stopEvents
    cases s.block <;> cases s.started <;> rfl
  | tool u =>
    show s.outputTokens + 1 = s.outputTokens + (s.toolEvents u).countP Event.isBlockDelta
    unfold toolEvents startEvents stopEvents
    cases s.block <;> cases s.started <;> rfl

/-- The tokens counted are the additions made to blocks. -/
theorem steps_outputTokens (s : State) (us : List OutputUnit) :
    (s.steps us).1.outputTokens = s.outputTokens + (s.steps us).2.countP Event.isBlockDelta := by
  induction us generalizing s with
  | nil => rfl
  | cons u us ih =>
    rw [steps, List.countP_append, ← Nat.add_assoc, ← step_outputTokens]
    exact ih (s.step u).1

theorem steps_endedWithTool (s : State) (us : List OutputUnit) :
    (s.steps us).1.endedWithTool = (us.getLast?.map OutputUnit.isCall).getD s.endedWithTool := by
  induction us generalizing s with
  | nil => rfl
  | cons u us ih =>
    have hstep : (s.step u).1.endedWithTool = u.isCall := by cases u <;> rfl
    rw [List.getLast?_cons, steps, ih, hstep]
    cases us.getLast? <;> rfl

/-- A message under way keeps its name and its model and stays under way. -/
theorem steps_started {s : State} (h : s.started = true) (us : List OutputUnit) :
    (s.steps us).1.started = true := by
  induction us generalizing s with
  | nil => exact h
  | cons u us ih =>
    apply ih
    cases u <;> rfl

/-- The first unit starts the message and then is like any other. -/
theorem steps_start {s : State} (h : s.started = false) {us : List OutputUnit} (hus : us ≠ []) :
    (s.steps us).1 = ({ s with started := true }.steps us).1 ∧
      (s.steps us).2 = .messageStart s.id s.model :: ({ s with started := true }.steps us).2 := by
  obtain ⟨u, us, rfl⟩ := List.exists_cons_of_ne_nil hus
  have hstate : (s.step u).1 = ({ s with started := true }.step u).1 := by cases u <;> rfl
  have hevents : (s.step u).2 = .messageStart s.id s.model :: ({ s with started := true }.step u).2 := by
    cases u with
    | text u => simp only [step, textEvents, startEvents, h]; rfl
    | tool u => simp only [step, toolEvents, startEvents, h]; rfl
  rw [steps, steps, hstate, hevents]
  exact ⟨rfl, rfl⟩

end State

/-! ## Blocks of units -/

/-- Puts text before blocks: into the first of them if that is text, else as a block of its own. -/
def push (ds : List Delta) : List FilledBlock → List FilledBlock
  | ⟨.text, es⟩ :: bs => ⟨.text, ds ++ es⟩ :: bs
  | bs => ⟨.text, ds⟩ :: bs

/-- The blocks of units. -/
def unitBlocks : List OutputUnit → List FilledBlock
  | [] => []
  | .text u :: us => push [.text u.text] (unitBlocks us)
  | .tool u :: us => ⟨.toolUse u.callId u.toolName, [.inputJson u.arguments]⟩ :: unitBlocks us

/-- The events that are left of blocks, the open block first. -/
def remaining : BlockState → List FilledBlock → List Event
  | .none, bs => blockEvents 0 bs
  | .tool i, bs => .blockStop i :: blockEvents (i + 1) bs
  | .text i, ⟨.text, ds⟩ :: bs => ds.map (.blockDelta i) ++ .blockStop i :: blockEvents (i + 1) bs
  | .text i, bs => .blockStop i :: blockEvents (i + 1) bs

theorem blockEvents_push (i : Nat) (ds : List Delta) (bs : List FilledBlock) :
    blockEvents i (push ds bs) = .blockStart i .text :: (ds.map (.blockDelta i) ++ remaining (.text i) bs) := by
  rcases bs with _ | ⟨⟨_ | ⟨callId, toolName⟩, es⟩, bs⟩
  · simp [push, blockEvents, remaining, FilledBlock.events]
  · simp [push, blockEvents, remaining, FilledBlock.events]
  · simp [push, blockEvents, remaining, FilledBlock.events]

theorem remaining_push (i : Nat) (ds : List Delta) (bs : List FilledBlock) :
    remaining (.text i) (push ds bs) = ds.map (.blockDelta i) ++ remaining (.text i) bs := by
  rcases bs with _ | ⟨⟨_ | ⟨callId, toolName⟩, es⟩, bs⟩
  · rfl
  · simp [push, remaining]
  · rfl

namespace State

/-- The events of units and the stop of the block that they leave open. -/
def body (s : State) (us : List OutputUnit) : List Event :=
  (s.steps us).2 ++ stopEvents (s.steps us).1.block.toClosed

theorem body_cons (s : State) (u : OutputUnit) (us : List OutputUnit) :
    s.body (u :: us) = (s.step u).2 ++ (s.step u).1.body us := by
  rw [body, steps, List.append_assoc]
  rfl

/-- From a message under way on, units give what is left of their blocks. -/
theorem body_eq_remaining {s : State} (h : s.started = true) (us : List OutputUnit) :
    s.body us = remaining s.block (unitBlocks us) := by
  induction us generalizing s with
  | nil =>
    show stopEvents s.block.toClosed = remaining s.block []
    cases s.block <;> rfl
  | cons u us ih =>
    -- A unit leaves the message under way, and then the open block alone matters.
    have hstarted : (s.step u).1.started = true := by cases u <;> rfl
    rw [body_cons, ih hstarted]
    cases u with
    | text u =>
      show s.textEvents u ++ remaining s.block.toText.state (unitBlocks us) =
        remaining s.block (push [.text u.text] (unitBlocks us))
      unfold textEvents startEvents stopEvents
      rw [h]
      cases s.block with
      | none => exact (blockEvents_push 0 [.text u.text] (unitBlocks us)).symm
      | text i => exact (remaining_push i [.text u.text] (unitBlocks us)).symm
      | tool i =>
        exact congrArg (Event.blockStop i :: ·) (blockEvents_push (i + 1) [.text u.text] (unitBlocks us)).symm
    | tool u =>
      show s.toolEvents u ++ remaining s.block.toTool.state (unitBlocks us) = remaining s.block (_ :: unitBlocks us)
      unfold toolEvents startEvents stopEvents
      rw [h]
      cases s.block <;> rfl

end State

/-! ## Blocks of commands -/

theorem push_push (ds es : List Delta) (bs : List FilledBlock) : push ds (push es bs) = push (ds ++ es) bs := by
  rcases bs with _ | ⟨⟨_ | ⟨callId, toolName⟩, fs⟩, bs⟩
  · rfl
  · simp [push]
  · rfl

theorem unitBlocks_chunks (callId : Nat → String) (calls : Nat) (later : List Matter) (chunk : String)
    (chunks : List String) (first : Bool) :
    unitBlocks (place callId first calls ((chunk :: chunks).map .text ++ later)) =
      push ((chunk :: chunks).map .text) (unitBlocks (place callId false calls later)) := by
  induction chunks generalizing chunk first with
  | nil => rfl
  | cons chunk' chunks ih =>
    have h := ih chunk' false
    show push [.text chunk] (unitBlocks (place callId false calls ((chunk' :: chunks).map .text ++ later))) = _
    rw [h, push_push]
    rfl

/-- Commands fall into groups that share these blocks. -/
def Groups (cs : List Command) (blocks : List FilledBlock) : Prop :=
  ∃ groups, groups.flatten = cs ∧ List.Forall₂ Shares groups blocks ∧
    blocks.IsChain (fun a b => ¬ (a.start = .text ∧ b.start = .text))

theorem groups_say (content : String) (settings : Settings) {cs : List Command} {blocks : List FilledBlock}
    (h : Groups cs blocks) :
    Groups (⟨.say content, settings⟩ :: cs)
      (push ((chunkText content (effectiveSize content settings.chunkSize)).map .text) blocks) := by
  obtain ⟨groups, hflat, hshares, hchain⟩ := h
  have halone := Shares.texts [(content, settings)] (List.cons_ne_nil _ _)
  rw [List.flatMap_cons, List.flatMap_nil, List.append_nil] at halone
  -- A text joins the group of texts that comes first, or is a group of its own before a call.
  cases hshares with
  | nil =>
    refine ⟨[[⟨.say content, settings⟩]], by simp [← hflat], .cons halone .nil, .singleton _⟩
  | @cons group block groups blocks hfirst hrest =>
    cases hfirst with
    | texts said hsaid =>
      refine ⟨(⟨.say content, settings⟩ :: said.map fun c => ⟨.say c.1, c.2⟩) :: groups, ?_, .cons ?_ hrest, ?_⟩
      · rw [← hflat]
        rfl
      · have hshared := Shares.texts ((content, settings) :: said) (List.cons_ne_nil _ _)
        rw [List.flatMap_cons, List.map_append] at hshared
        exact hshared
      · cases hchain with
        | singleton => exact .singleton _
        | cons_cons hne hchain => exact .cons_cons hne hchain
    | call toolName arguments settings' callId =>
      refine ⟨[⟨.say content, settings⟩] :: [⟨.toolCall toolName arguments, settings'⟩] :: groups, ?_,
        .cons halone (.cons (.call ..) hrest), ?_⟩
      · rw [← hflat]
        rfl
      · exact .cons_cons (fun h => nomatch h.2) hchain

theorem groups_toolCall (toolName arguments callId : String) (settings : Settings) {cs : List Command}
    {blocks : List FilledBlock} (h : Groups cs blocks) :
    Groups (⟨.toolCall toolName arguments, settings⟩ :: cs)
      (⟨.toolUse callId toolName, [.inputJson arguments]⟩ :: blocks) := by
  obtain ⟨groups, hflat, hshares, hchain⟩ := h
  refine ⟨[_] :: groups, by rw [List.flatten_cons, hflat]; rfl, .cons (.call ..) hshares, ?_⟩
  cases blocks with
  | nil => exact .singleton _
  | cons block blocks => exact .cons_cons (fun h => nomatch h.1) hchain

/-- The blocks of the units of commands are shared by groups of the commands. -/
theorem groups_unitBlocks (callId : Nat → String) (cs : List Command) (first : Bool) (calls : Nat) :
    Groups cs (unitBlocks (place callId first calls (cs.flatMap matter))) := by
  induction cs generalizing first calls with
  | nil => exact ⟨[], rfl, .nil, .nil⟩
  | cons c cs ih =>
    obtain ⟨content | ⟨toolName, arguments⟩, settings⟩ := c
    · rw [List.flatMap_cons]
      obtain ⟨chunk, chunks, hchunks⟩ := List.exists_cons_of_ne_nil
        (chunkText_ne_nil content (effectiveSize content settings.chunkSize))
      have h := groups_say content settings (ih false calls)
      rw [hchunks, ← unitBlocks_chunks callId calls _ chunk chunks first, ← hchunks] at h
      exact h
    · exact groups_toolCall toolName arguments (callId calls) settings (ih false (calls + 1))

namespace Shares

variable {group : List Command} {block : FilledBlock}

theorem deltas_ne_nil (h : Shares group block) : block.deltas ≠ [] := by
  cases h with
  | texts said hsaid =>
    obtain ⟨c, said, rfl⟩ := List.exists_cons_of_ne_nil hsaid
    rw [List.flatMap_cons, List.map_append]
    intro h
    exact chunkText_ne_nil _ _ (List.map_eq_nil_iff.1 (List.append_eq_nil_iff.1 h).1)
  | call => exact List.cons_ne_nil _ _

/-- What is added to a block is what its commands put out, whatever size it is cut with. -/
theorem added_eq (h : Shares group block) : block.added = String.join (group.map output) := by
  cases h with
  | texts said hsaid =>
    show String.join (List.map Delta.added (List.map Delta.text _)) = _
    rw [List.map_map, List.map_map]
    -- That there is a text is not needed, and would not survive the induction.
    clear hsaid
    induction said with
    | nil => rfl
    | cons c said ih =>
      rw [List.flatMap_cons, List.map_append, String.join_append, ih, List.map_cons, String.join_cons]
      congr 1
      show String.join (List.map id _) = c.1
      rw [List.map_id, join_chunkText]
  | call => rfl

end Shares

/-! ## Calls -/

theorem call?_push (ds : List Delta) (bs : List FilledBlock) :
    (push ds bs).filterMap FilledBlock.call? = bs.filterMap FilledBlock.call? := by
  rcases bs with _ | ⟨⟨_ | ⟨callId, toolName⟩, es⟩, bs⟩ <;> rfl

theorem storedOf_eq (x : Context) (provider : Provider) (calls : Nat) (us : List OutputUnit) :
    ((storedOf x provider calls us).map fun r => (r.callId, r.toolName, r.arguments)) =
      (unitBlocks us).filterMap FilledBlock.call? := by
  induction us generalizing calls with
  | nil => rfl
  | cons u us ih =>
    cases u with
    | text u => exact (ih calls).trans (call?_push _ _).symm
    | tool u =>
      have harguments : String.join [u.arguments] = u.arguments := by
        rw [String.join_cons, String.join_nil, String.append_empty]
      show _ :: (storedOf x provider (calls + 1) us).map _ = (u.callId, u.toolName, String.join [u.arguments]) :: _
      rw [ih, harguments]
      rfl

/-! ## The message -/

/-- The events of a message that has not started are those of a message that tells its units. -/
theorem events_initial (id model : String) {us : List OutputUnit} (hus : us ≠ []) :
    ((State.initial id model).steps us).2 ++ ((State.initial id model).steps us).1.closeEvents =
      messageEvents id model (unitBlocks us) (if us.getLast?.any OutputUnit.isCall then .toolUse else .endTurn)
        (((State.initial id model).steps us).2.countP Event.isBlockDelta) := by
  obtain ⟨hstate, hevents⟩ := State.steps_start (s := State.initial id model) rfl hus
  have htokens := State.steps_outputTokens (State.initial id model) us
  have hended := State.steps_endedWithTool (State.initial id model) us
  have hreason : ((State.initial id model).steps us).1.endedWithTool = us.getLast?.any OutputUnit.isCall := by
    rw [hended]
    cases us.getLast? <;> rfl
  have hstarted := State.steps_started (s := { State.initial id model with started := true }) rfl us
  have hbody := State.body_eq_remaining (s := { State.initial id model with started := true }) rfl us
  -- The stop of the last block belongs to the end of the message, so it is taken from there first.
  have hblocks : ((State.initial id model).steps us).2 ++
      State.stopEvents ((State.initial id model).steps us).1.block.toClosed =
      .messageStart id model :: blockEvents 0 (unitBlocks us) := by
    rw [hevents, hstate, List.cons_append]
    exact congrArg (Event.messageStart id model :: ·) hbody
  rw [← hstate] at hstarted
  rw [State.closeEvents, State.startEvents, hstarted, hreason, htokens, ← List.append_assoc]
  show ((State.initial id model).steps us).2 ++ State.stopEvents _ ++ _ = _
  rw [hblocks]
  show _ ++ [Event.messageDelta _ (0 + _), _] = _
  rw [Nat.zero_add]
  rfl

theorem countP_closeEvents (s : State) : s.closeEvents.countP Event.isBlockDelta = 0 := by
  unfold State.closeEvents State.startEvents State.stopEvents
  cases s.block <;> cases s.started <;> rfl

/-- What is sent for commands is the message that tells them. -/
theorem tells_events (x : Context) (id model : String) {cs : List Command} (hcs : cs ≠ []) :
    Tells id model cs (storedOf x .anthropic 0 (units x cs))
      (((State.initial id model).steps (units x cs)).2 ++
        ((State.initial id model).steps (units x cs)).1.closeEvents) := by
  have hevents := events_initial id model (units_ne_nil x hcs)
  obtain ⟨groups, hflat, hshares, hchain⟩ := groups_unitBlocks x.callId cs true 0
  refine ⟨groups, _, _, _, hevents, hflat, hshares, hchain,
    hshares.imp fun _ _ h => ⟨h.deltas_ne_nil, h.added_eq⟩, storedOf_eq x .anthropic 0 _, ?_, ?_⟩
  · rw [List.countP_append, countP_closeEvents, Nat.add_zero]
  · have hlast := congrArg (Option.any fun b => b) (getLast?_units x cs)
    rw [Option.any_map, Option.any_map] at hlast
    have hany : (units x cs).getLast?.any OutputUnit.isCall = cs.getLast?.any Command.isToolCall := hlast
    rw [hany]
    cases cs.getLast?.any Command.isToolCall <;> simp

/-- What a completed stream has given its sink is a message of the model that tells the commands, or
the notice that there are none. -/
theorem perform_tells {κ : Type} [Sink κ] (x : Context) (id : String) (cs : List Command) (k : κ)
    (h : (perform k (Provider.anthropic.schedule x id cs)).outcome = .completed) :
    ∃ events,
      Tells id x.model (spoken cs) (perform k (Provider.anthropic.schedule x id cs)).stored events ∧
      Sink.takeAll? k (events.map Event.frame) = some (perform k (Provider.anthropic.schedule x id cs)).collector ∧
      (perform k (Provider.anthropic.schedule x id cs)).taken = events.length := by
  have hrun := perform_delivers h
  have hschedule : Provider.anthropic.schedule x id cs = schedule x (State.initial id x.model) (spoken cs) :=
    (schedule_spoken x (State.initial id x.model) cs).symm
  have hframes := hrun.frames
  have htaken := hrun.taken
  have hstored := hrun.stored
  rw [hschedule, frames_schedule x _ (spoken_ne_nil cs), State.framesOf_eq] at hframes htaken
  rw [hschedule, stored_schedule x _ (spoken_ne_nil cs)] at hstored
  rw [hschedule]
  refine ⟨_, ?_, hframes, ?_⟩
  · rw [hstored]
    exact tells_events x id x.model (spoken_ne_nil cs)
  · rw [htaken, List.length_map]

/-- A text, a call and a text again, streamed into a collector without a limit. -/
theorem perform_tells_three :
    let x : Context := ⟨"m", 0, 0, fun _ => "id", fun _ => "", fun _ => 0⟩
    let cs : List Command := [⟨.say "ab", ⟨some 1, none, none⟩⟩, ⟨.toolCall "f" "\x7b", .unset⟩, ⟨.say "", .unset⟩]
    let run := perform (Collector.empty none) (Provider.anthropic.schedule x "msg" cs)
    run.outcome = .completed ∧
      ∃ events, Tells "msg" "m" cs run.stored events ∧ run.collector.frames.toList = events.map Event.frame ∧
        run.taken = events.length := by
  intro x cs run
  have hopen : Sink.NeverCloses (Collector.empty none) := Collector.neverCloses_unlimited #[]
  have hrun : run.outcome = .completed := perform_neverCloses hopen _
  obtain ⟨events, htells, hframes, htaken⟩ := perform_tells x "msg" cs (Collector.empty none) hrun
  exact ⟨hrun, events, htells, Collector.frames_of_takeAll? hframes, htaken⟩

end ScriptedModel.Stream.Anthropic
