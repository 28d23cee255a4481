/-
What carrying out actions delivers. A run that completes has given every frame of the actions to
the sink, waited for every pause and stored every response, each in order; and a run into a sink
that never closes completes.
-/
import ScriptedModel.Stream.Collector

namespace ScriptedModel.Stream

/-! ## What actions are made of -/

/-- The frame that an action sends. -/
def Action.frame? : Action → Option String
  | .send frame => some frame
  | _ => none

/-- The pause that an action is. -/
def Action.pause? : Action → Option Nat
  | .pause ms => some ms
  | _ => none

/-- The response that an action stores. -/
def Action.stored? : Action → Option StoredResponse
  | .store response => some response
  | _ => none

theorem frames_map_send (frames : List String) : (frames.map Action.send).filterMap Action.frame? = frames := by
  rw [List.filterMap_map]
  exact List.filterMap_some

theorem stored_map_send (frames : List String) : (frames.map Action.send).filterMap Action.stored? = [] := by
  rw [List.filterMap_map, List.filterMap_eq_nil_iff]
  exact fun _ _ => rfl

/-! ## Sinks -/

section Sinks

variable {κ : Type} [Sink κ]

namespace Sink

/-- The sink after frames, if it takes them all. -/
def takeAll? (k : κ) (frames : List String) : Option κ := frames.foldlM send? k

/-- Whatever a sink that never closes has taken, it is open and takes another frame. -/
def NeverCloses (k : κ) : Prop := ∀ frames, ∃ k', takeAll? k frames = some k' ∧ isClosed k' = false

theorem takeAll?_cons (k : κ) (frame : String) (frames : List String) :
    takeAll? k (frame :: frames) = (send? k frame).bind (takeAll? · frames) :=
  List.foldlM_cons

theorem NeverCloses.isClosed {k : κ} (h : NeverCloses k) : isClosed k = false := by
  obtain ⟨k', hk, hopen⟩ := h []
  cases hk
  exact hopen

/-- A sink that never closes takes any frame, and then never closes. -/
theorem NeverCloses.send {k : κ} (h : NeverCloses k) (frame : String) :
    ∃ k', send? k frame = some k' ∧ NeverCloses k' := by
  obtain ⟨k₁, hk₁, -⟩ := h [frame]
  rw [takeAll?_cons] at hk₁
  obtain ⟨k', hk', -⟩ := Option.bind_eq_some_iff.1 hk₁
  refine ⟨k', hk', fun frames => ?_⟩
  obtain ⟨k'', hk'', hopen⟩ := h (frame :: frames)
  rw [takeAll?_cons, hk'] at hk''
  exact ⟨k'', hk'', hopen⟩

end Sink

/-! ## Runs -/

/-- A run that delivers actions has done all of them. -/
structure Run.Delivers (k : κ) (actions : List Action) (r : Run κ) : Prop where
  frames : Sink.takeAll? k (actions.filterMap Action.frame?) = some r.collector
  taken : r.taken = (actions.filterMap Action.frame?).length
  pauses : r.pauses = actions.filterMap Action.pause?
  stored : r.stored = actions.filterMap Action.stored?
  outcome : r.outcome = .completed

theorem perform_delivers {k : κ} {actions : List Action} (h : (perform k actions).outcome = .completed) :
    (perform k actions).Delivers k actions := by
  -- A run that completes has not met a closed sink, so these cases are those of a run cut short.
  fun_induction perform k actions with
  | case1 k => exact ⟨rfl, rfl, rfl, rfl, rfl⟩
  | case2 k frame rest k' hk r ih =>
    have hr := ih h
    refine ⟨?_, congrArg (· + 1) hr.taken, hr.pauses, hr.stored, h⟩
    show Sink.takeAll? k (frame :: rest.filterMap Action.frame?) = some r.collector
    rw [Sink.takeAll?_cons, hk]
    exact hr.frames
  | case3 k frame rest hk => cases h
  | case4 k ms rest hk => cases h
  | case5 k ms rest hk r ih =>
    have hr := ih h
    exact ⟨hr.frames, hr.taken, congrArg (ms :: ·) hr.pauses, hr.stored, h⟩
  | case6 k response rest r ih =>
    have hr := ih h
    exact ⟨hr.frames, hr.taken, hr.pauses, congrArg (response :: ·) hr.stored, h⟩

theorem perform_neverCloses {k : κ} (hk : Sink.NeverCloses k) (actions : List Action) :
    (perform k actions).outcome = .completed := by
  induction actions generalizing k with
  | nil => rfl
  | cons action rest ih =>
    cases action with
    | send frame =>
      obtain ⟨k', hsend, hk'⟩ := hk.send frame
      rw [perform, hsend]
      exact ih hk'
    | pause ms =>
      rw [perform, hk.isClosed]
      exact ih hk
    | store response =>
      rw [perform]
      exact ih hk

end Sinks

/-! ## Collectors -/

namespace Collector

theorem send?_eq_some {c c' : Collector} {frame : String} (h : c.send? frame = some c') :
    c' = { c with frames := c.frames.push frame } := by
  unfold send? at h
  split at h
  · cases h
  · cases h; rfl

/-- A collector that takes frames keeps them after those it has. -/
theorem frames_of_takeAll? {c c' : Collector} {frames : List String} (h : Sink.takeAll? c frames = some c') :
    c'.frames.toList = c.frames.toList ++ frames := by
  induction frames generalizing c with
  | nil => cases h; simp
  | cons frame frames ih =>
    rw [Sink.takeAll?_cons] at h
    obtain ⟨c₁, h₁, h⟩ := Option.bind_eq_some_iff.1 h
    rw [ih h, send?_eq_some h₁]
    simp

/-- A collector without a limit never closes. -/
theorem neverCloses_unlimited (frames : Array String) : Sink.NeverCloses (⟨none, frames⟩ : Collector) := by
  intro later
  induction later generalizing frames with
  | nil => exact ⟨_, rfl, rfl⟩
  | cons frame later ih => exact ih (frames.push frame)

theorem perform_unlimited (actions : List Action) :
    (perform (empty none) actions).Delivers (empty none) actions :=
  perform_delivers (perform_neverCloses (neverCloses_unlimited #[]) actions)

theorem frames_perform_unlimited (actions : List Action) :
    (perform (empty none) actions).collector.frames.toList = actions.filterMap Action.frame? :=
  (frames_of_takeAll? (perform_unlimited actions).frames).trans (List.nil_append _)

end Collector

end ScriptedModel.Stream
