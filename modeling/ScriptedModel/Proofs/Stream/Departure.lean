/-
A reader that may go away. It does so between any two steps, with frames on their way or none, and the
encoder finds out only when it sends the next frame or comes to the end of a pause.

Main statement: while the reader is there, what it has and what is on its way are the frames that were
counted; if it stays it gets all of them; and if it goes away the encoder completes, or stops with no more
frames counted than the reader has and the channel has room for, and has stored what belongs to these.
-/
import ScriptedModel.Proofs.Stream.Interruption
import ScriptedModel.Proofs.Stream.Relay

namespace ScriptedModel.Stream

open Script (Command)

namespace Relay

/-! ## Turns -/

/-- The reader goes away, if it is still there. -/
def leave? (r : Relay) : Option Relay :=
  if r.channel.connected then some { r with channel := r.channel.disconnect } else none

/-- A step of the encoder or of the reader, or the reader's going away. -/
def Turn (r r' : Relay) : Prop := r.Step r' ∨ r.leave? = some r'

/-- Turns of all kinds, in any order. -/
abbrev Turns : Relay → Relay → Prop := Relation.ReflTransGen Turn

variable {r r' : Relay} {capacity : Nat} {actions done : List Action}

/-- What the encoder does where its reader is gone. -/
inductive Finishes (r : Relay) : Relay → Prop
  | completed (h : r.rest = []) : Finishes r { r with outcome? := some .completed }
  | stored {response : StoredResponse} {rest : List Action} (h : r.rest = .store response :: rest) :
    Finishes r { r with rest, stored := r.stored ++ [response] }
  | refused {action : Action} {rest : List Action} (h : r.rest = action :: rest) (haction : action.stored? = none) :
    Finishes r { r with outcome? := some .disconnected }

theorem send_of_gone {c : Channel} (hc : c.connected = false) (frame : String) : c.send frame = (.refused, c) := by
  unfold Channel.send
  rw [if_pos (by rw [hc]; exact Bool.false_ne_true)]

theorem finishes_of_encode? (hc : r.channel.connected = false) (h : r.encode? = some r') :
    r.outcome? = none ∧ r.Finishes r' := by
  unfold encode? at h
  split at h
  case h_1 => cases h
  case h_2 houtcome hrest =>
    cases h
    exact ⟨houtcome, .completed hrest⟩
  case h_3 houtcome hrest =>
    cases h
    exact ⟨houtcome, .stored hrest⟩
  case h_4 houtcome hrest =>
    rw [if_neg (by rw [hc]; exact Bool.false_ne_true)] at h
    cases h
    exact ⟨houtcome, .refused hrest rfl⟩
  case h_5 frame rest houtcome hrest =>
    rw [send_of_gone hc] at h
    cases h
    exact ⟨houtcome, .refused hrest rfl⟩

theorem exists_of_leave? (h : r.leave? = some r') :
    r.channel.connected = true ∧ r' = { r with channel := r.channel.disconnect } := by
  unfold leave? at h
  split at h
  case isTrue hc =>
    cases h
    exact ⟨hc, rfl⟩
  case isFalse => cases h

/-! ## What a relay has done -/

/-- What a relay has done of actions, whether its reader is there or not: the frames that were sent are
those of the actions that are done, and no more than the reader has got and the channel has room for. -/
structure Accounts (capacity : Nat) (actions done : List Action) (sent : List String) (r : Relay) : Prop where
  split : done ++ r.rest = actions
  sends : done.filterMap Action.frame? = sent
  bound : r.channel.capacity = max 1 capacity
  room : r.channel.queue.length ≤ max 1 capacity
  frames : r.received ++ r.channel.queue <+: sent
  present : r.channel.connected = true → r.received ++ r.channel.queue = sent
  gone : r.channel.connected = false → r.channel.queue = []
  ahead : sent.length ≤ r.received.length + max 1 capacity
  taken : r.taken = sent.length
  pauses : r.pauses = done.filterMap Action.pause?
  stored : r.stored = done.filterMap Action.stored?
  outcome : r.outcome? = none ∨ (r.outcome? = some .completed ∧ r.rest = []) ∨
    (r.outcome? = some .disconnected ∧ r.channel.connected = false ∧
      ∃ action later, r.rest = action :: later ∧ action.stored? = none)

variable {sent : List String}

theorem accounts_start (capacity : Nat) (actions : List Action) :
    (start capacity actions).Accounts capacity actions [] [] :=
  { split := rfl
    sends := rfl
    bound := rfl
    room := Nat.zero_le _
    frames := List.prefix_rfl
    present := fun _ => rfl
    gone := fun _ => rfl
    ahead := Nat.zero_le _
    taken := rfl
    pauses := rfl
    stored := rfl
    outcome := .inl rfl }

namespace Accounts

/-- While its reader is there, a relay that accounts for actions carries them. -/
theorem carries (h : r.Accounts capacity actions done sent) (hc : r.channel.connected = true) : r.Carries actions := by
  have hsplit := h.split
  subst hsplit
  refine
    { connected := hc
      capacity := h.bound ▸ Nat.le_max_left 1 capacity
      room := h.bound ▸ h.room
      frames := ?_
      taken := ?_
      pauses := by rw [h.pauses, List.filterMap_append]
      stored := by rw [h.stored, List.filterMap_append]
      outcome := ?_ }
  · rw [← List.append_assoc, h.present hc, List.filterMap_append, h.sends]
  · rw [h.taken, ← h.present hc, List.length_append]
  · rcases h.outcome with hnone | hcompleted | ⟨-, hgone, -⟩
    · exact .inl hnone
    · exact .inr hcompleted
    · exact absurd (hc.symm.trans hgone) (by decide)

theorem stores (h : r.Accounts capacity actions done sent) (houtcome : r.outcome? = none) {response : StoredResponse}
    {rest : List Action} (hrest : r.rest = .store response :: rest) :
    Accounts capacity actions (done ++ [.store response]) sent { r with rest, stored := r.stored ++ [response] } := by
  refine { h with split := ?_, sends := ?_, pauses := ?_, stored := ?_, outcome := .inl houtcome }
  · rw [List.append_assoc, ← h.split, hrest]
    rfl
  · simp [h.sends, Action.frame?]
  · simp [h.pauses, Action.pause?]
  · simp [h.stored, Action.stored?]

theorem encodes (h : r.Accounts capacity actions done sent) (hc : r.channel.connected = true)
    (houtcome : r.outcome? = none) (hstep : r.Encodes r') :
    ∃ done' sent', r'.Accounts capacity actions done' sent' := by
  cases hstep with
  | completed hrest => exact ⟨done, sent, { h with outcome := .inr (.inl ⟨rfl, hrest⟩) }⟩
  | stored hrest => exact ⟨_, _, h.stores houtcome hrest⟩
  | @paused ms rest hrest =>
    refine ⟨done ++ [.pause ms], sent,
      { h with split := ?_, sends := ?_, pauses := ?_, stored := ?_, outcome := .inl houtcome }⟩
    · rw [List.append_assoc, ← h.split, hrest]
      rfl
    · simp [h.sends, Action.frame?]
    · simp [h.pauses, Action.pause?]
    · simp [h.stored, Action.stored?]
  | @sent frame rest hrest hroom =>
    have hpresent := h.present hc
    rw [h.bound] at hroom
    have hqueue : r.received ++ (r.channel.queue ++ [frame]) = sent ++ [frame] := by
      rw [← List.append_assoc, hpresent]
    refine ⟨done ++ [.send frame], sent ++ [frame],
      { h with
        split := ?_
        sends := ?_
        room := ?_
        frames := hqueue ▸ List.prefix_rfl
        present := fun _ => hqueue
        gone := fun hgone => absurd (hc.symm.trans hgone) (by decide)
        ahead := ?_
        taken := ?_
        pauses := ?_
        stored := ?_
        outcome := .inl houtcome }⟩
    · rw [List.append_assoc, ← h.split, hrest]
      rfl
    · simp [h.sends, Action.frame?]
    · simpa using Nat.succ_le_of_lt hroom
    · rw [← hqueue]
      simpa using Nat.succ_le_of_lt hroom
    · simp [h.taken]
    · simp [h.pauses, Action.pause?]
    · simp [h.stored, Action.stored?]

theorem finishes (h : r.Accounts capacity actions done sent) (hc : r.channel.connected = false)
    (houtcome : r.outcome? = none) (hstep : r.Finishes r') :
    ∃ done' sent', r'.Accounts capacity actions done' sent' := by
  cases hstep with
  | completed hrest => exact ⟨done, sent, { h with outcome := .inr (.inl ⟨rfl, hrest⟩) }⟩
  | stored hrest => exact ⟨_, _, h.stores houtcome hrest⟩
  | refused hrest haction => exact ⟨done, sent, { h with outcome := .inr (.inr ⟨rfl, hc, _, _, hrest, haction⟩) }⟩

theorem receives (h : r.Accounts capacity actions done sent) (hstep : r.receive? = some r') :
    r'.Accounts capacity actions done sent := by
  obtain ⟨frame, queue, hqueue, rfl⟩ := exists_of_receive? hstep
  have hmoved : (r.received ++ [frame]) ++ queue = r.received ++ r.channel.queue := by
    rw [hqueue, List.append_assoc]
    rfl
  have hroom := h.room
  rw [hqueue] at hroom
  refine { h with
    room := Nat.le_of_succ_le hroom
    frames := hmoved ▸ h.frames
    present := fun hc => hmoved.trans (h.present hc)
    gone := fun hgone => absurd (hqueue.symm.trans (h.gone hgone)) (List.cons_ne_nil _ _)
    ahead := ?_ }
  have := h.ahead
  simp only [List.length_append, List.length_singleton]
  omega

theorem leaves (h : r.Accounts capacity actions done sent) (hstep : r.leave? = some r') :
    r'.Accounts capacity actions done sent := by
  obtain ⟨hc, rfl⟩ := exists_of_leave? hstep
  refine { h with
    room := Nat.zero_le _
    frames := ?_
    present := fun hc' => absurd hc' Bool.false_ne_true
    gone := fun _ => rfl
    outcome := ?_ }
  · show r.received ++ [] <+: sent
    rw [List.append_nil]
    exact (List.prefix_append _ _).trans h.frames
  · rcases h.outcome with hnone | hcompleted | ⟨-, hgone, -⟩
    · exact .inl hnone
    · exact .inr (.inl hcompleted)
    · exact absurd (hc.symm.trans hgone) (by decide)

theorem step (h : r.Accounts capacity actions done sent) (hstep : r.Step r') :
    ∃ done' sent', r'.Accounts capacity actions done' sent' := by
  rcases hstep with hencode | hreceive
  · cases hc : r.channel.connected with
    | true =>
      obtain ⟨houtcome, hencodes⟩ := encodes_of_encode? hc hencode
      exact h.encodes hc houtcome hencodes
    | false =>
      obtain ⟨houtcome, hfinishes⟩ := finishes_of_encode? hc hencode
      exact h.finishes hc houtcome hfinishes
  · exact ⟨done, sent, h.receives hreceive⟩

theorem turn (h : r.Accounts capacity actions done sent) (hturn : r.Turn r') :
    ∃ done' sent', r'.Accounts capacity actions done' sent' := by
  rcases hturn with hstep | hleave
  · exact h.step hstep
  · exact ⟨done, sent, h.leaves hleave⟩

end Accounts

/-- Whatever turns are taken, a relay accounts for its actions. -/
theorem accounts_of_turns (h : (start capacity actions).Turns r) :
    ∃ done sent, r.Accounts capacity actions done sent := by
  induction h with
  | refl => exact ⟨[], [], accounts_start capacity actions⟩
  | tail _ hturn ih =>
    obtain ⟨done, sent, h⟩ := ih
    exact h.turn hturn

/-! ## The end -/

namespace Accounts

theorem received_prefix (h : r.Accounts capacity actions done sent) : r.received <+: sent :=
  (List.prefix_append _ _).trans h.frames

theorem append_sent (h : r.Accounts capacity actions done sent) :
    sent ++ r.rest.filterMap Action.frame? = actions.filterMap Action.frame? := by
  rw [← h.split, List.filterMap_append, h.sends]

/-- What was sent are the first frames of all. -/
theorem take_taken (h : r.Accounts capacity actions done sent) :
    (actions.filterMap Action.frame?).take r.taken = sent := by
  rw [← h.append_sent, h.taken, List.take_left]

/-- An encoder has a step until it ends, whether its reader is there or not. -/
theorem outcome?_ne_none (h : r.Accounts capacity actions done sent) (hover : r.IsOver) : r.outcome? ≠ none := by
  intro hnone
  cases hc : r.channel.connected with
  | true =>
    have hcompleted := ((h.carries hc).completed_of_isOver hover).2
    cases hnone.symm.trans hcompleted
  | false =>
    have hencode : ∃ r', r.encode? = some r' := by
      unfold encode?
      rw [hnone]
      rcases r.rest with _ | ⟨ms | response | frame, rest⟩
      · exact ⟨_, rfl⟩
      · exact ⟨_, if_neg (by rw [hc]; exact Bool.false_ne_true)⟩
      · exact ⟨_, rfl⟩
      · simp only [send_of_gone hc]
        exact ⟨_, rfl⟩
    obtain ⟨r', hr'⟩ := hencode
    exact hover r' (.inl hr')

/-- An encoder that has ended has carried all out, or its reader is gone and it comes to a frame next. -/
theorem ended (h : r.Accounts capacity actions done sent) (hpauses : PausesLead actions) (hover : r.IsOver) :
    (r.outcome? = some .completed ∧ r.taken = (actions.filterMap Action.frame?).length) ∨
      (r.outcome? = some .disconnected ∧ r.channel.connected = false ∧
        r.taken < (actions.filterMap Action.frame?).length) := by
  have hlength := congrArg List.length h.append_sent
  rw [List.length_append, ← h.taken] at hlength
  rcases h.outcome with hnone | ⟨hcompleted, hrest⟩ | ⟨hdisconnected, hgone, action, later, hrest, haction⟩
  · exact absurd hnone (h.outcome?_ne_none hover)
  · rw [hrest] at hlength
    exact .inl ⟨hcompleted, hlength⟩
  · rw [← h.split, hrest] at hpauses
    obtain ⟨frame, after, hframes, -⟩ := hpauses.of_append.exists_frame haction
    rw [hrest, hframes, List.length_cons] at hlength
    exact .inr ⟨hdisconnected, hgone, by omega⟩

/-- An encoder that has ended has stored what it stores into a sink that closes after as many frames. -/
theorem stored_of_isOver (h : r.Accounts capacity actions done sent) (hpauses : PausesLead actions) (hover : r.IsOver) :
    r.stored = (perform (Collector.empty (some r.taken)) actions).stored := by
  have hrest : ∀ action later, r.rest = action :: later → action.stored? = none := by
    intro action later hcons
    rcases h.outcome with hnone | ⟨-, hnil⟩ | ⟨-, -, action', later', hrest, haction⟩
    · exact absurd hnone (h.outcome?_ne_none hover)
    · exact absurd (hcons.symm.trans hnil) (List.cons_ne_nil _ _)
    · cases hcons.symm.trans hrest
      exact haction
  have hn : (done.filterMap Action.frame?).length = r.taken := by rw [h.sends, h.taken]
  rw [(perform_cutAt r.taken hpauses).stored, h.stored, ← h.split]
  rw [← h.split] at hpauses
  exact (hpauses.stored_of_append hn hrest).symm

/-! ## Coming to an end -/

theorem work_lt (h : r.Accounts capacity actions done sent) (hstep : r.Step r') : r'.work < r.work := by
  cases hc : r.channel.connected with
  | true => exact (h.carries hc).work_lt hstep
  | false =>
    rcases hstep with hencode | hreceive
    · obtain ⟨houtcome, hfinishes⟩ := finishes_of_encode? hc hencode
      unfold work
      cases hfinishes with
      | completed hrest | refused hrest => simp [houtcome]
      | stored hrest => simp [houtcome, hrest]
    · obtain ⟨frame, queue, hqueue, -⟩ := exists_of_receive? hreceive
      exact absurd (hqueue.symm.trans (h.gone hc)) (List.cons_ne_nil _ _)

end Accounts

/-- Nobody comes or goes by a step. -/
theorem connected_of_step (hstep : r.Step r') : r'.channel.connected = r.channel.connected := by
  rcases hstep with hencode | hreceive
  · cases hc : r.channel.connected with
    | true =>
      obtain ⟨-, hencodes⟩ := encodes_of_encode? hc hencode
      cases hencodes <;> exact hc
    | false =>
      obtain ⟨-, hfinishes⟩ := finishes_of_encode? hc hencode
      cases hfinishes <;> exact hc
  · obtain ⟨frame, queue, -, rfl⟩ := exists_of_receive? hreceive
    rfl

/-- The reader's going away takes a turn too. -/
def turnWork (r : Relay) : Nat := r.work + if r.channel.connected then 1 else 0

theorem Accounts.turnWork_lt (h : r.Accounts capacity actions done sent) (hturn : r.Turn r') :
    r'.turnWork < r.turnWork := by
  unfold turnWork
  rcases hturn with hstep | hleave
  · rw [connected_of_step hstep]
    have := h.work_lt hstep
    omega
  · obtain ⟨hc, rfl⟩ := exists_of_leave? hleave
    rw [if_pos hc, if_neg (show ¬ r.channel.disconnect.connected = true from Bool.false_ne_true)]
    simp only [work, Channel.disconnect, List.length_nil]
    omega

/-! ## Relays whose reader may go away -/

/-- How a relay of actions stands, where whole is the run into a sink without a limit. -/
structure Stands (capacity : Nat) (actions : List Action) (whole : Run Collector) (r : Relay) : Prop where
  room : r.channel.queue.length ≤ max 1 capacity
  /-- While the reader is there, what it has and what is on its way are the frames that were counted. -/
  present : r.channel.connected = true →
    r.received ++ r.channel.queue = whole.collector.frames.toList.take r.taken ∧
      r.taken = (r.received ++ r.channel.queue).length
  /-- A reader that stays gets all. -/
  drained : r.channel.connected = true → r.IsOver → r.Yields whole
  /-- A reader that went away has the first frames, and the channel had room for the others that were
  counted. -/
  gone : r.channel.connected = false →
    r.received <+: whole.collector.frames.toList ∧
      r.received.length ≤ r.taken ∧ r.taken ≤ r.received.length + max 1 capacity
  /-- The encoder has sent all frames, or has stopped short of them because the reader is gone. -/
  ended : r.IsOver →
    (r.outcome? = some .completed ∧ r.taken = whole.collector.frames.size) ∨
      (r.outcome? = some .disconnected ∧ r.channel.connected = false ∧ r.taken < whole.collector.frames.size)
  stored : r.IsOver → r.stored = (perform (Collector.empty (some r.taken)) actions).stored
  /-- There is a way to the end that does not need the reader's going away. -/
  ends : ∃ r', r.Reaches r' ∧ r'.IsOver

theorem Accounts.exists_isOver (h : r.Accounts capacity actions done sent) : ∃ r', r.Reaches r' ∧ r'.IsOver := by
  refine @exists_last Relay Step (fun r => ∃ done sent, r.Accounts capacity actions done sent) work ?_ r ⟨done, sent, h⟩
  rintro r r' ⟨done, sent, h⟩ hstep
  exact ⟨h.step hstep, h.work_lt hstep⟩

theorem Accounts.stands (h : r.Accounts capacity actions done sent) (hpauses : PausesLead actions) :
    r.Stands capacity actions (perform (Collector.empty none) actions) := by
  have hwhole := Collector.frames_perform_unlimited actions
  have hsize := congrArg List.length hwhole
  rw [Array.length_toList] at hsize
  refine
    { room := h.room
      present := fun hc => ?_
      drained := fun hc hover => (h.carries hc).yields hover
      gone := fun _ => ?_
      ended := fun hover => ?_
      stored := h.stored_of_isOver hpauses
      ends := h.exists_isOver }
  · rw [hwhole, h.take_taken, h.present hc]
    exact ⟨rfl, h.taken⟩
  · rw [hwhole, h.taken, ← h.append_sent]
    exact ⟨h.received_prefix.trans (List.prefix_append _ _), h.received_prefix.length_le, h.ahead⟩
  · rw [hsize]
    exact h.ended hpauses hover

/-- What becomes of a relay of actions whose reader may go away at any moment. -/
structure Withstands (capacity : Nat) (actions : List Action) (whole : Run Collector) : Prop where
  stands : ∀ r, (start capacity actions).Turns r → r.Stands capacity actions whole
  finite : ∀ f : Nat → Relay, f 0 = start capacity actions → ¬ ∀ n, (f n).Turn (f (n + 1))

theorem withstands_start (capacity : Nat) (hpauses : PausesLead actions) :
    Withstands capacity actions (perform (Collector.empty none) actions) := by
  refine ⟨fun r hturns => ?_, fun f hf => ?_⟩
  · obtain ⟨done, sent, h⟩ := accounts_of_turns hturns
    exact h.stands hpauses
  · refine @not_endless Relay Turn (fun r => ∃ done sent, r.Accounts capacity actions done sent) turnWork ?_ f
      (hf ▸ ⟨[], [], accounts_start capacity actions⟩)
    rintro r r' ⟨done, sent, h⟩ hturn
    exact ⟨h.turn hturn, h.turnWork_lt hturn⟩

/-- Whatever a response puts out and whatever room is configured, it withstands its reader's going away. -/
theorem withstands_schedule (p : Provider) (x : Context) (replyId : String) (cs : List Command) (capacity : Nat) :
    Withstands capacity (p.schedule x replyId cs) (perform (Collector.empty none) (p.schedule x replyId cs)) :=
  withstands_start capacity (p.pausesLead_schedule x replyId cs)

/-- A reader that goes away while a frame is on its way and the next one waits for room: one is counted of
which it has nothing. -/
example : ∃ r, (start 0 [.send "a", .send "b"]).Turns r ∧ r.IsOver ∧ r.received = [] ∧ r.taken = 1 ∧
    r.outcome? = some .disconnected := by
  refine ⟨⟨[.send "b"], ⟨1, [], false⟩, 1, [], [], some .disconnected, []⟩, ?_, ?_, rfl, rfl, rfl⟩
  · have hsends : (start 0 [.send "a", .send "b"]).Turn ⟨[.send "b"], ⟨1, ["a"], true⟩, 1, [], [], none, []⟩ :=
      .inl (.inl rfl)
    have hleaves : Turn ⟨[.send "b"], ⟨1, ["a"], true⟩, 1, [], [], none, []⟩
        ⟨[.send "b"], ⟨1, [], false⟩, 1, [], [], none, []⟩ := .inr rfl
    exact .head hsends (.head hleaves (.single (.inl (.inl rfl))))
  · rintro r' (h | h) <;> cases h

end Relay

end ScriptedModel.Stream
