/-
A response without commands. It is made on a path of its own, which asks the framer for one unit and
closes; a command that says the same is cut into chunks, given pauses and counted like any other.

Main statement: into any sink, wherever that may close, both paths are the same run, which waits for
nothing, stores nothing and sends the frames of the notice as far as the sink takes them.
-/
import ScriptedModel.Proofs.Stream.Interruption

namespace ScriptedModel.Stream

section Sends

variable {κ : Type} [Sink κ]

/-- A run that does nothing but send frames, as far as the sink takes them. -/
structure Run.Sends (k : κ) (frames : List String) (r : Run κ) : Prop where
  pauses : r.pauses = []
  stored : r.stored = []
  extent : ∃ sent lost, sent ++ lost = frames ∧ Sink.takeAll? k sent = some r.collector ∧ r.taken = sent.length ∧
    ((r.outcome = .completed ∧ lost = []) ∨
      (r.outcome = .disconnected ∧ ∃ frame later, lost = frame :: later ∧ Sink.send? r.collector frame = none))

theorem perform_sends (k : κ) (frames : List String) : (perform k (frames.map .send)).Sends k frames := by
  induction frames generalizing k with
  | nil => exact ⟨rfl, rfl, [], [], rfl, rfl, rfl, .inl ⟨rfl, rfl⟩⟩
  | cons frame frames ih =>
    rw [List.map_cons, perform]
    cases hk : Sink.send? k frame with
    | none => exact ⟨rfl, rfl, [], frame :: frames, rfl, rfl, rfl, .inr ⟨rfl, frame, frames, rfl, hk⟩⟩
    | some k' =>
      obtain ⟨hpauses, hstored, sent, lost, rfl, htaken, hcount, hending⟩ := ih k'
      refine ⟨hpauses, hstored, frame :: sent, lost, rfl, ?_, congrArg (· + 1) hcount, hending⟩
      rw [Sink.takeAll?_cons, hk]
      exact htaken

end Sends

section Notice

variable {σ : Type} [Framer σ]

theorem schedule_nil (x : Context) (s : σ) :
    schedule x s [] = (Framer.framesOf s [.text ⟨emptyNotice, true, true⟩]).map .send := by
  rw [Framer.framesOf_cons, List.map_append]
  rfl

/-- The command that says that there are none is streamed like no command, in any context. -/
theorem schedule_notice (x y : Context) (s : σ) :
    schedule y s [⟨.say emptyNotice, .unset⟩] = schedule x s [] := by
  rw [schedule_nil x, ← schedule_nil y]
  exact schedule_spoken y s []

/-- No command and the notice as a command are one run into any sink, which leaves every store as it is. -/
theorem perform_schedule_nil {κ : Type} [Sink κ] (x y : Context) (s : σ) (k : κ) (store : ToolStore) :
    perform k (schedule x s []) = perform k (schedule y s [⟨.say emptyNotice, .unset⟩]) ∧
      (perform k (schedule x s [])).Sends k (Framer.framesOf s [.text ⟨emptyNotice, true, true⟩]) ∧
      store.putAll (perform k (schedule x s [])).stored = store := by
  have hsends : (perform k (schedule x s [])).Sends k (Framer.framesOf s [.text ⟨emptyNotice, true, true⟩]) := by
    rw [schedule_nil]
    exact perform_sends k _
  refine ⟨by rw [schedule_notice x y], hsends, ?_⟩
  rw [hsends.stored]
  rfl

end Notice

end ScriptedModel.Stream
