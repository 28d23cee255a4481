/-
The encoder of a response, which carries its actions out one at a time. What it stores, sends and waits for
is told after each of its steps, so that other things may happen in between.

Main statements: an encoder comes to an end, and then has done what the run of its actions does; and until
then it has sent the frames and stored the responses of those actions that are done.
-/
import ScriptedModel.Proofs.Stream.Interruption

namespace ScriptedModel.Stream

/-- An encoder that sends into a sink: the actions still to be carried out, what was done so far, and how it
ended if it did. -/
structure Encoder (κ : Type) where
  rest : List Action
  sink : κ
  taken : Nat
  pauses : List Nat
  stored : List StoredResponse
  outcome? : Option Outcome
  deriving Repr

namespace Encoder

variable {κ : Type}

/-- Before any step. -/
def start (k : κ) (actions : List Action) : Encoder κ := ⟨actions, k, 0, [], [], none⟩

/-- What an encoder that has ended has done. -/
def result? (e : Encoder κ) : Option (Run κ) := e.outcome?.map fun o => ⟨e.sink, e.taken, e.pauses, e.stored, o⟩

variable [Sink κ]

/-! ## Steps -/

/-- The next step, unless the encoder has ended, and the response that it stores if it stores one. -/
def next? (e : Encoder κ) : Option (Encoder κ × Option StoredResponse) :=
  match e.outcome?, e.rest with
  | some _, _ => none
  | none, [] => some ({ e with outcome? := some .completed }, none)
  | none, .store response :: rest => some ({ e with rest, stored := e.stored ++ [response] }, some response)
  | none, .pause ms :: rest =>
    if Sink.isClosed e.sink then some ({ e with outcome? := some .disconnected }, none)
    else some ({ e with rest, pauses := e.pauses ++ [ms] }, none)
  | none, .send frame :: rest =>
    match Sink.send? e.sink frame with
    | some sink => some ({ e with rest, sink, taken := e.taken + 1 }, none)
    | none => some ({ e with outcome? := some .disconnected }, none)

/-- The encoder after a number of steps, if it has as many. -/
def after? : Nat → Encoder κ → Option (Encoder κ)
  | 0, e => some e
  | n + 1, e => e.next?.bind fun (e', _) => after? n e'

variable {e e' : Encoder κ} {stored? : Option StoredResponse} {k : κ} {actions done : List Action}

/-- What a step does. -/
inductive Advances (e : Encoder κ) : Encoder κ → Option StoredResponse → Prop
  | completed (h : e.rest = []) : Advances e { e with outcome? := some .completed } none
  | refused {action : Action} {rest : List Action} (h : e.rest = action :: rest) (hrefused : action.IsRefused e.sink) :
    Advances e { e with outcome? := some .disconnected } none
  | stored {response : StoredResponse} {rest : List Action} (h : e.rest = .store response :: rest) :
    Advances e { e with rest, stored := e.stored ++ [response] } (some response)
  | paused {ms : Nat} {rest : List Action} (h : e.rest = .pause ms :: rest) (hopen : Sink.isClosed e.sink = false) :
    Advances e { e with rest, pauses := e.pauses ++ [ms] } none
  | sent {frame : String} {rest : List Action} {sink : κ} (h : e.rest = .send frame :: rest)
    (hsend : Sink.send? e.sink frame = some sink) : Advances e { e with rest, sink, taken := e.taken + 1 } none

theorem advances_of_next? (h : e.next? = some (e', stored?)) : e.outcome? = none ∧ e.Advances e' stored? := by
  unfold next? at h
  split at h
  case h_1 => cases h
  case h_2 houtcome hrest =>
    cases h
    exact ⟨houtcome, .completed hrest⟩
  case h_3 houtcome hrest =>
    cases h
    exact ⟨houtcome, .stored hrest⟩
  case h_4 houtcome hrest =>
    split at h
    case isTrue hclosed =>
      cases h
      exact ⟨houtcome, .refused hrest hclosed⟩
    case isFalse hopen =>
      cases h
      exact ⟨houtcome, .paused hrest (Bool.not_eq_true _ ▸ hopen)⟩
  case h_5 houtcome hrest =>
    split at h
    case h_1 sink hsend =>
      cases h
      exact ⟨houtcome, .sent hrest hsend⟩
    case h_2 hsend =>
      cases h
      exact ⟨houtcome, .refused hrest hsend⟩

/-- An encoder has a step until it ends. -/
theorem next?_eq_none_iff : e.next? = none ↔ e.outcome? ≠ none := by
  unfold next?
  split
  case h_1 houtcome => simp [houtcome]
  case h_2 houtcome _ => simp [houtcome]
  case h_3 houtcome _ => simp [houtcome]
  case h_4 houtcome _ => split <;> simp [houtcome]
  case h_5 houtcome _ => split <;> simp [houtcome]

theorem stored_of_next? (h : e.next? = some (e', stored?)) : e'.stored = e.stored ++ stored?.toList := by
  obtain ⟨-, hadvances⟩ := advances_of_next? h
  cases hadvances with
  | stored => rfl
  | completed | refused | paused | sent => exact (List.append_nil _).symm

/-! ## The end -/

/-- What an encoder comes to. -/
def run (e : Encoder κ) : Run κ :=
  let later := perform e.sink e.rest
  e.result?.getD
    ⟨later.collector, e.taken + later.taken, e.pauses ++ later.pauses, e.stored ++ later.stored, later.outcome⟩

theorem run_start (k : κ) (actions : List Action) : (start k actions).run = perform k actions := by
  show (⟨_, 0 + (perform k actions).taken, [] ++ _, [] ++ _, _⟩ : Run κ) = _
  rw [Nat.zero_add]
  rfl

theorem run_of_outcome?_none (h : e.outcome? = none) :
    e.run = ⟨(perform e.sink e.rest).collector, e.taken + (perform e.sink e.rest).taken,
      e.pauses ++ (perform e.sink e.rest).pauses, e.stored ++ (perform e.sink e.rest).stored,
      (perform e.sink e.rest).outcome⟩ := by
  rw [run, result?, h]
  rfl

theorem perform_of_isRefused {action : Action} (h : action.IsRefused k) (rest : List Action) :
    perform k (action :: rest) = .ended k .disconnected := by
  cases action with
  | send frame =>
    have hsend : Sink.send? k frame = none := h
    rw [perform, hsend]
  | pause ms => exact if_pos h
  | store response => exact h.elim

/-- What an encoder comes to is settled before its first step. -/
theorem run_of_next? (h : e.next? = some (e', stored?)) : e'.run = e.run := by
  obtain ⟨houtcome, hadvances⟩ := advances_of_next? h
  rw [run_of_outcome?_none houtcome]
  cases hadvances with
  | completed hrest =>
    rw [hrest]
    simp [run, result?, perform, Run.ended]
  | refused hrest hrefused =>
    rw [hrest, perform_of_isRefused hrefused]
    simp [run, result?, Run.ended]
  | stored hrest =>
    rw [run_of_outcome?_none, hrest]
    · simp [perform]
    · exact houtcome
  | paused hrest hopen =>
    rw [run_of_outcome?_none, hrest]
    · simp [perform, hopen]
    · exact houtcome
  | sent hrest hsend =>
    rw [run_of_outcome?_none, hrest, perform, hsend]
    · simp [Nat.add_assoc, Nat.add_comm 1]
    · exact houtcome

theorem result?_of_next?_none (h : e.next? = none) : e.result? = some e.run := by
  obtain ⟨o, ho⟩ := Option.ne_none_iff_exists'.1 (next?_eq_none_iff.1 h)
  rw [run, result?, ho]
  rfl

/-- What is left to do: the actions, and the end itself. -/
def work (e : Encoder κ) : Nat := e.rest.length + if e.outcome?.isNone then 1 else 0

theorem work_lt_of_next? (h : e.next? = some (e', stored?)) : e'.work < e.work := by
  obtain ⟨houtcome, hadvances⟩ := advances_of_next? h
  unfold work
  cases hadvances with
  | completed | refused => simp [houtcome]
  | stored hrest | paused hrest | sent hrest => simp [houtcome, hrest]

/-! ## On the way -/

/-- What an encoder has done of actions: it has sent the frames of those that are done, and stored their
responses. -/
structure Does (k : κ) (actions done : List Action) (e : Encoder κ) : Prop where
  split : done ++ e.rest = actions
  frames : Sink.takeAll? k (done.filterMap Action.frame?) = some e.sink
  stored : e.stored = done.filterMap Action.stored?

theorem does_start (k : κ) (actions : List Action) : (start k actions).Does k actions [] := ⟨rfl, rfl, rfl⟩

theorem Does.next (h : e.Does k actions done) (hnext : e.next? = some (e', stored?)) :
    ∃ done', e'.Does k actions done' := by
  obtain ⟨-, hadvances⟩ := advances_of_next? hnext
  have hsplit : ∀ {action : Action} {rest : List Action}, e.rest = action :: rest →
      (done ++ [action]) ++ rest = actions := by
    intro action rest hrest
    rw [← h.split, hrest, List.append_assoc]
    rfl
  cases hadvances with
  | completed | refused => exact ⟨done, { h with }⟩
  | @stored response rest hrest =>
    refine ⟨done ++ [.store response], hsplit hrest, ?_, ?_⟩
    · rw [List.filterMap_append]
      exact (List.append_nil _).symm ▸ h.frames
    · simp [h.stored, Action.stored?]
  | @paused ms rest hrest =>
    refine ⟨done ++ [.pause ms], hsplit hrest, ?_, ?_⟩
    · rw [List.filterMap_append]
      exact (List.append_nil _).symm ▸ h.frames
    · simp [h.stored, Action.stored?]
  | @sent frame rest sink hrest hsend =>
    refine ⟨done ++ [.send frame], hsplit hrest, ?_, ?_⟩
    · have hframes := h.frames
      unfold Sink.takeAll? at hframes ⊢
      simp [Action.frame?, hframes, hsend]
    · simp [h.stored, Action.stored?]

end Encoder

end ScriptedModel.Stream
