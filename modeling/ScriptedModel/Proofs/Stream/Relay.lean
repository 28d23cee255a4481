/-
The relay of a response: an encoder carries its actions out into a bounded channel, and a reader takes
the frames out of it. Each goes its own steps, so the two may be interleaved in any way; a frame that
finds no room waits until the reader has made some.

Main statement: however the steps of the two are interleaved, they come to an end, and then the reader
has got what a sink without a limit takes, and the encoder has done what it does into such a sink.
-/
import Mathlib.Logic.Relation
import ScriptedModel.Proofs.Stream.Delivery
import ScriptedModel.Stream.Channel

namespace ScriptedModel.Stream

/-! ## Steps that come to an end -/

section Measure

variable {α : Type} {step : α → α → Prop} {holds : α → Prop} {work : α → Nat}

/-- Steps of which each leaves less to do can be taken until there is none. -/
theorem exists_last (hstep : ∀ a b, holds a → step a b → holds b ∧ work b < work a) {a : α} (ha : holds a) :
    ∃ b, Relation.ReflTransGen step a b ∧ ∀ c, ¬ step b c := by
  induction hwork : work a using Nat.strongRecOn generalizing a with
  | ind n ih =>
    by_cases hlast : ∀ c, ¬ step a c
    · exact ⟨a, .refl, hlast⟩
    · obtain ⟨a₁, hfirst⟩ := Classical.not_forall_not.1 hlast
      obtain ⟨ha₁, hlt⟩ := hstep a a₁ ha hfirst
      obtain ⟨b, hsteps, hb⟩ := ih (work a₁) (hwork ▸ hlt) ha₁ rfl
      exact ⟨b, .head hfirst hsteps, hb⟩

theorem not_endless (hstep : ∀ a b, holds a → step a b → holds b ∧ work b < work a) {f : Nat → α} (hf : holds (f 0)) :
    ¬ ∀ n, step (f n) (f (n + 1)) := by
  intro hsteps
  have hwork : ∀ n, holds (f n) ∧ work (f n) + n ≤ work (f 0) := by
    intro n
    induction n with
    | zero => exact ⟨hf, Nat.le_refl _⟩
    | succ n ih =>
      obtain ⟨hnext, hlt⟩ := hstep _ _ ih.1 (hsteps n)
      exact ⟨hnext, by omega⟩
  have hlast := (hwork (work (f 0) + 1)).2
  omega

end Measure

/-! ## Encoders and readers -/

/-- An encoder and a reader with a channel between them: the actions still to be carried out, what was
done so far, how the encoder ended if it did, and the frames that the reader has got. -/
structure Relay where
  rest : List Action
  channel : Channel
  taken : Nat
  pauses : List Nat
  stored : List StoredResponse
  outcome? : Option Outcome
  received : List String
  deriving Repr

namespace Relay

/-! ## Steps -/

/-- Before any step; the channel has room for one frame at least. -/
def start (capacity : Nat) (actions : List Action) : Relay :=
  ⟨actions, .empty (max 1 capacity), 0, [], [], none, []⟩

/-- The step of the encoder, unless it has ended or waits for room. -/
def encode? (r : Relay) : Option Relay :=
  match r.outcome?, r.rest with
  | some _, _ => none
  | none, [] => some { r with outcome? := some .completed }
  | none, .store response :: rest => some { r with rest, stored := r.stored ++ [response] }
  | none, .pause ms :: rest =>
    if r.channel.connected then some { r with rest, pauses := r.pauses ++ [ms] }
    else some { r with outcome? := some .disconnected }
  | none, .send frame :: rest =>
    match r.channel.send frame with
    | (.accepted, channel) => some { r with rest, channel, taken := r.taken + 1 }
    | (.refused, _) => some { r with outcome? := some .disconnected }
    | (.waiting, _) => none

/-- The step of the reader, unless nothing is on its way. -/
def receive? (r : Relay) : Option Relay :=
  r.channel.receive?.map fun (frame, channel) => { r with channel, received := r.received ++ [frame] }

/-- A step of either. -/
def Step (r r' : Relay) : Prop := r.encode? = some r' ∨ r.receive? = some r'

/-- Steps of both, interleaved in any way. -/
abbrev Reaches : Relay → Relay → Prop := Relation.ReflTransGen Step

/-- Whether neither has a step left. -/
def IsOver (r : Relay) : Prop := ∀ r', ¬ r.Step r'

/-! ## What a step does -/

variable {r r' : Relay} {actions : List Action}

/-- A frame goes into the queue of a channel that has a reader and room, and nothing else changes. -/
theorem send_of_room {c : Channel} (hc : c.connected = true) (hroom : c.queue.length < c.capacity)
    (frame : String) : c.send frame = (.accepted, { c with queue := c.queue ++ [frame] }) := by
  unfold Channel.send
  rw [if_neg (not_not_intro hc), if_neg (Nat.not_le.2 hroom)]

theorem send_of_full {c : Channel} (hc : c.connected = true) (hfull : c.capacity ≤ c.queue.length) (frame : String) :
    c.send frame = (.waiting, c) := by
  unfold Channel.send
  rw [if_neg (not_not_intro hc), if_pos hfull]

/-- What the encoder does where its reader is still there. -/
inductive Encodes (r : Relay) : Relay → Prop
  | completed (h : r.rest = []) : Encodes r { r with outcome? := some .completed }
  | stored {response : StoredResponse} {rest : List Action} (h : r.rest = .store response :: rest) :
    Encodes r { r with rest, stored := r.stored ++ [response] }
  | paused {ms : Nat} {rest : List Action} (h : r.rest = .pause ms :: rest) :
    Encodes r { r with rest, pauses := r.pauses ++ [ms] }
  | sent {frame : String} {rest : List Action} (h : r.rest = .send frame :: rest)
    (hroom : r.channel.queue.length < r.channel.capacity) :
    Encodes r
      { r with rest, channel := { r.channel with queue := r.channel.queue ++ [frame] }, taken := r.taken + 1 }

theorem encodes_of_encode? (hc : r.channel.connected = true) (h : r.encode? = some r') :
    r.outcome? = none ∧ r.Encodes r' := by
  unfold encode? at h
  split at h
  case h_1 => cases h
  case h_2 houtcome hrest =>
    cases h
    exact ⟨houtcome, .completed hrest⟩
  case h_3 houtcome hrest =>
    cases h
    exact ⟨houtcome, .stored hrest⟩
  case h_4 houtcome hrest =>
    rw [if_pos hc] at h
    cases h
    exact ⟨houtcome, .paused hrest⟩
  case h_5 frame rest houtcome hrest =>
    rcases Nat.lt_or_ge r.channel.queue.length r.channel.capacity with hroom | hfull
    · rw [send_of_room hc hroom] at h
      cases h
      exact ⟨houtcome, .sent hrest hroom⟩
    · rw [send_of_full hc hfull] at h
      cases h

theorem exists_of_receive? (h : r.receive? = some r') : ∃ frame queue, r.channel.queue = frame :: queue ∧
    r' = { r with channel := { r.channel with queue }, received := r.received ++ [frame] } := by
  unfold receive? Channel.receive? at h
  split at h
  · cases h
  case h_2 frame queue hqueue =>
    cases h
    exact ⟨frame, queue, hqueue, rfl⟩

/-! ## What a relay holds -/

/-- A relay of actions whose reader is there: what was received, what is on its way and what is still to
be sent are the frames of the actions, and so with what else they do. -/
structure Carries (actions : List Action) (r : Relay) : Prop where
  connected : r.channel.connected = true
  capacity : 1 ≤ r.channel.capacity
  room : r.channel.queue.length ≤ r.channel.capacity
  frames : r.received ++ (r.channel.queue ++ r.rest.filterMap Action.frame?) = actions.filterMap Action.frame?
  taken : r.taken = r.received.length + r.channel.queue.length
  pauses : r.pauses ++ r.rest.filterMap Action.pause? = actions.filterMap Action.pause?
  stored : r.stored ++ r.rest.filterMap Action.stored? = actions.filterMap Action.stored?
  outcome : r.outcome? = none ∨ r.outcome? = some .completed ∧ r.rest = []

theorem carries_start (capacity : Nat) (actions : List Action) : (start capacity actions).Carries actions :=
  { connected := rfl
    capacity := Nat.le_max_left 1 capacity
    room := Nat.zero_le _
    frames := rfl
    taken := rfl
    pauses := rfl
    stored := rfl
    outcome := .inl rfl }

theorem Carries.encodes (h : r.Carries actions) (houtcome : r.outcome? = none) (hstep : r.Encodes r') :
    r'.Carries actions := by
  have hframes := h.frames
  have hpauses := h.pauses
  have hstored := h.stored
  cases hstep with
  | completed hrest => exact { h with outcome := .inr ⟨rfl, hrest⟩ }
  | stored hrest =>
    rw [hrest] at hframes hpauses hstored
    refine { h with frames := hframes, pauses := hpauses, stored := ?_, outcome := .inl houtcome }
    exact (List.append_assoc _ _ _).trans hstored
  | paused hrest =>
    rw [hrest] at hframes hpauses hstored
    refine { h with frames := hframes, pauses := ?_, stored := hstored, outcome := .inl houtcome }
    exact (List.append_assoc _ _ _).trans hpauses
  | sent hrest hroom =>
    rw [hrest] at hframes hpauses hstored
    refine { h with
      room := ?_, frames := ?_, taken := ?_, pauses := hpauses, stored := hstored, outcome := .inl houtcome }
    · simpa using Nat.succ_le_of_lt hroom
    · simpa [Action.frame?] using hframes
    · simp [h.taken, Nat.add_assoc]

theorem Carries.receives (h : r.Carries actions) (hstep : r.receive? = some r') : r'.Carries actions := by
  obtain ⟨frame, queue, hqueue, rfl⟩ := exists_of_receive? hstep
  have hroom := h.room
  have hframes := h.frames
  have htaken := h.taken
  rw [hqueue] at hroom hframes htaken
  refine { h with room := Nat.le_of_succ_le hroom, frames := ?_, taken := ?_ }
  · simpa using hframes
  · show r.taken = (r.received ++ [frame]).length + queue.length
    rw [htaken, List.length_append, List.length_cons, List.length_singleton]
    omega

theorem Carries.step (h : r.Carries actions) (hstep : r.Step r') : r'.Carries actions := by
  rcases hstep with hencode | hreceive
  · obtain ⟨houtcome, hencodes⟩ := encodes_of_encode? h.connected hencode
    exact h.encodes houtcome hencodes
  · exact h.receives hreceive

theorem Carries.reaches (h : r.Carries actions) (hsteps : r.Reaches r') : r'.Carries actions := by
  induction hsteps with
  | refl => exact h
  | tail _ hstep ih => exact ih.step hstep

/-! ## The end -/

/-- A relay that has come to what a run into a sink without a limit comes to. -/
structure Yields (r : Relay) (run : Run Collector) : Prop where
  received : r.received = run.collector.frames.toList
  taken : r.taken = run.taken
  pauses : r.pauses = run.pauses
  stored : r.stored = run.stored
  outcome : r.outcome? = some run.outcome

theorem queue_eq_nil_of_isOver (hover : r.IsOver) : r.channel.queue = [] := by
  cases hq : r.channel.queue with
  | nil => rfl
  | cons frame queue =>
    refine absurd (.inr ?_) (hover { r with
      channel := { r.channel with queue }, received := r.received ++ [frame] })
    simp [receive?, Channel.receive?, hq]

/-- An encoder has a step until it ends, since a reader that has nothing left to take has made room. -/
theorem Carries.completed_of_isOver (h : r.Carries actions) (hover : r.IsOver) :
    r.rest = [] ∧ r.outcome? = some .completed := by
  rcases h.outcome with hnone | ⟨hcompleted, hrest⟩
  · have hroom : r.channel.queue.length < r.channel.capacity := by
      rw [queue_eq_nil_of_isOver hover]
      exact h.capacity
    have hencode : ∃ r', r.encode? = some r' := by
      unfold encode?
      rw [hnone]
      rcases r.rest with _ | ⟨ms | response | frame, rest⟩
      · exact ⟨_, rfl⟩
      · exact ⟨_, if_pos h.connected⟩
      · exact ⟨_, rfl⟩
      · simp only [send_of_room h.connected hroom]
        exact ⟨_, rfl⟩
    obtain ⟨r', hr'⟩ := hencode
    exact absurd (.inl hr') (hover r')
  · exact ⟨hrest, hcompleted⟩

theorem Carries.yields (h : r.Carries actions) (hover : r.IsOver) :
    r.Yields (perform (Collector.empty none) actions) := by
  have hqueue := queue_eq_nil_of_isOver hover
  obtain ⟨hrest, houtcome⟩ := h.completed_of_isOver hover
  have hrun := Collector.perform_unlimited actions
  have hframes := h.frames
  have hpauses := h.pauses
  have hstored := h.stored
  have htaken := h.taken
  rw [hqueue, hrest] at hframes
  rw [hrest] at hpauses hstored
  rw [hqueue] at htaken
  have hreceived : r.received = actions.filterMap Action.frame? := by simpa using hframes
  exact
    { received := hreceived.trans (Collector.frames_perform_unlimited actions).symm
      taken := by rw [htaken, hreceived, hrun.taken]; rfl
      pauses := by rw [hrun.pauses]; simpa using hpauses
      stored := by rw [hrun.stored]; simpa using hstored
      outcome := by rw [houtcome, hrun.outcome] }

/-! ## Coming to an end -/

/-- What is left to do: an action takes a step of the encoder and may take one of the reader, a frame on
its way takes one of the reader, and the encoder's end is a step too. -/
def work (r : Relay) : Nat :=
  2 * r.rest.length + r.channel.queue.length + if r.outcome?.isNone then 1 else 0

theorem Carries.work_lt (h : r.Carries actions) (hstep : r.Step r') : r'.work < r.work := by
  rcases hstep with hencode | hreceive
  · obtain ⟨houtcome, hencodes⟩ := encodes_of_encode? h.connected hencode
    unfold work
    cases hencodes with
    | completed hrest => simp [houtcome]
    | stored hrest => simp [houtcome, hrest]
    | paused hrest => simp [houtcome, hrest]
    | sent hrest hroom => simp [houtcome, hrest]; omega
  · obtain ⟨frame, queue, hqueue, rfl⟩ := exists_of_receive? hreceive
    unfold work
    simp [hqueue]

theorem Carries.exists_isOver (h : r.Carries actions) : ∃ r', r.Reaches r' ∧ r'.IsOver :=
  exists_last (fun _ _ h hstep => ⟨h.step hstep, h.work_lt hstep⟩) h

/-- No relay goes on for ever. -/
theorem Carries.not_forever (h : r.Carries actions) {f : Nat → Relay} (hf : f 0 = r) :
    ¬ ∀ n, (f n).Step (f (n + 1)) :=
  not_endless (fun _ _ h hstep => ⟨h.step hstep, h.work_lt hstep⟩) (hf ▸ h)

/-- Whatever turns are taken, a relay comes to an end, and has then come to what a run came to. -/
structure Settles (r : Relay) (run : Run Collector) : Prop where
  ends : ∃ r', r.Reaches r' ∧ r'.IsOver
  finite : ∀ f : Nat → Relay, f 0 = r → ¬ ∀ n, (f n).Step (f (n + 1))
  yields : ∀ r', r.Reaches r' → r'.IsOver → r'.Yields run

/-- Whatever room the channel has, a relay of actions comes to what they come to in a sink without a
limit. -/
theorem settles_start (capacity : Nat) (actions : List Action) :
    (start capacity actions).Settles (perform (Collector.empty none) actions) := by
  have hstart := carries_start capacity actions
  exact
    { ends := hstart.exists_isOver
      finite := fun f hf => hstart.not_forever hf
      yields := fun r' hsteps hover => (hstart.reaches hsteps).yields hover }

end Relay

end ScriptedModel.Stream
