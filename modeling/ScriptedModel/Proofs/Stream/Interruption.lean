/-
Responses that are cut short. A run into any sink does its actions up to a point, and stops there
because there are no more or because the next one finds the sink closed. Every pause of a response is
followed by a frame, so where the sink is closed there is always a frame that it will not take: what a
collector with a limit gets depends on the frames alone.

Main statement: a collector that closes after n frames gets the first n frames, keeps the responses
that are stored before more than n frames are sent, and is told of as complete exactly if there are
no more than n frames.
-/
import ScriptedModel.Proofs.Stream.Units

namespace ScriptedModel.Stream

open Script (Command)

/-! ## Runs into any sink -/

section Sinks

variable {κ : Type} [Sink κ]

/-- An action that finds the sink closed. -/
def Action.IsRefused (k : κ) : Action → Prop
  | .send frame => Sink.send? k frame = none
  | .pause _ => Sink.isClosed k = true
  | .store _ => False

theorem stored?_of_isRefused {k : κ} {action : Action} (h : action.IsRefused k) : action.stored? = none := by
  cases action with
  | store response => exact h.elim
  | send frame | pause ms => rfl

/-- A run that has done some actions, and not the rest, because there is none or because the sink is
closed. -/
structure Run.StopsAfter (k : κ) (done rest : List Action) (r : Run κ) : Prop where
  frames : Sink.takeAll? k (done.filterMap Action.frame?) = some r.collector
  taken : r.taken = (done.filterMap Action.frame?).length
  pauses : r.pauses = done.filterMap Action.pause?
  stored : r.stored = done.filterMap Action.stored?
  ending : (r.outcome = .completed ∧ rest = []) ∨
    (r.outcome = .disconnected ∧ ∃ action later, rest = action :: later ∧ action.IsRefused r.collector)

theorem exists_stopsAfter (k : κ) (actions : List Action) :
    ∃ done rest, done ++ rest = actions ∧ (perform k actions).StopsAfter k done rest := by
  fun_induction perform k actions with
  | case1 k => exact ⟨[], [], rfl, rfl, rfl, rfl, rfl, .inl ⟨rfl, rfl⟩⟩
  | case2 k frame rest k' hk r ih =>
    obtain ⟨done, later, rfl, h⟩ := ih
    refine ⟨.send frame :: done, later, rfl, ?_, congrArg (· + 1) h.taken, h.pauses, h.stored, h.ending⟩
    show Sink.takeAll? k (frame :: done.filterMap Action.frame?) = some r.collector
    rw [Sink.takeAll?_cons, hk]
    exact h.frames
  | case3 k frame rest hk =>
    exact ⟨[], .send frame :: rest, rfl, rfl, rfl, rfl, rfl, .inr ⟨rfl, _, _, rfl, hk⟩⟩
  | case4 k ms rest hk =>
    exact ⟨[], .pause ms :: rest, rfl, rfl, rfl, rfl, rfl, .inr ⟨rfl, _, _, rfl, hk⟩⟩
  | case5 k ms rest hk r ih =>
    obtain ⟨done, later, rfl, h⟩ := ih
    exact ⟨.pause ms :: done, later, rfl, h.frames, h.taken, congrArg (ms :: ·) h.pauses, h.stored, h.ending⟩
  | case6 k response rest r ih =>
    obtain ⟨done, later, rfl, h⟩ := ih
    exact ⟨.store response :: done, later, rfl, h.frames, h.taken, h.pauses, congrArg (response :: ·) h.stored,
      h.ending⟩

end Sinks

/-! ## Collectors with a limit -/

namespace Collector

variable {n : Nat} {c c' : Collector}

theorem isClosed_eq_true_iff (hc : c.limit = some n) : c.isClosed = true ↔ n ≤ c.frames.size := by
  simp [isClosed, hc]

theorem send?_eq_none_iff (frame : String) : c.send? frame = none ↔ c.isClosed = true := by
  simp [send?]

/-- A collector never has more frames than its limit. -/
theorem size_le_of_takeAll? (hc : c.limit = some n) (hsize : c.frames.size ≤ n) {frames : List String}
    (h : Sink.takeAll? c frames = some c') : c'.limit = some n ∧ c'.frames.size ≤ n := by
  induction frames generalizing c with
  | nil => cases h; exact ⟨hc, hsize⟩
  | cons frame frames ih =>
    rw [Sink.takeAll?_cons] at h
    obtain ⟨c₁, h₁, h⟩ := Option.bind_eq_some_iff.1 h
    have hopen : c.isClosed ≠ true := by
      intro hclosed
      rw [← send?_eq_none_iff frame] at hclosed
      cases h₁.symm.trans hclosed
    have hroom : ¬ n ≤ c.frames.size := fun hle => hopen ((isClosed_eq_true_iff hc).2 hle)
    cases send?_eq_some h₁
    refine ih (c := { c with frames := c.frames.push frame }) hc ?_ h
    rw [Array.size_push]
    omega

theorem le_size_of_isRefused (hc : c.limit = some n) {action : Action} (h : action.IsRefused c) :
    n ≤ c.frames.size := by
  cases action with
  | send frame => exact (isClosed_eq_true_iff hc).1 ((send?_eq_none_iff frame).1 h)
  | pause ms => exact (isClosed_eq_true_iff hc).1 h
  | store response => exact h.elim

end Collector

/-! ## What comes before what -/

/-- Actions of which every pause is followed by a frame at once. -/
inductive PausesLead : List Action → Prop
  | nil : PausesLead []
  | send (frame : String) {later : List Action} (h : PausesLead later) : PausesLead (.send frame :: later)
  | store (response : StoredResponse) {later : List Action} (h : PausesLead later) :
    PausesLead (.store response :: later)
  | pause (ms : Nat) {frame : String} {later : List Action} (h : PausesLead (.send frame :: later)) :
    PausesLead (.pause ms :: .send frame :: later)

/-- What actions of some sort carry, each with the number of frames that are sent before it, where some
were sent already. -/
def located {α : Type} (what? : Action → Option α) : Nat → List Action → List (Nat × α)
  | _, [] => []
  | sent, action :: later =>
    (what? action).toList.map (sent, ·) ++ located what? (sent + action.frame?.toList.length) later

/-- The responses that actions store, each with the number of frames that are sent before it, where
some were sent already. -/
def storings : Nat → List Action → List (Nat × StoredResponse)
  | _, [] => []
  | sent, .send _ :: later => storings (sent + 1) later
  | sent, .pause _ :: later => storings sent later
  | sent, .store response :: later => (sent, response) :: storings sent later

theorem PausesLead.tail {action : Action} {later : List Action} (h : PausesLead (action :: later)) :
    PausesLead later := by
  cases h <;> assumption

theorem PausesLead.of_append {done rest : List Action} (h : PausesLead (done ++ rest)) : PausesLead rest := by
  induction done with
  | nil => exact h
  | cons action done ih => exact ih h.tail

theorem PausesLead.append {done rest : List Action} (h : PausesLead done) (hrest : PausesLead rest) :
    PausesLead (done ++ rest) := by
  induction h with
  | nil => exact hrest
  | send frame _ ih => exact .send frame ih
  | store response _ ih => exact .store response ih
  | pause ms _ ih => exact .pause ms ih

theorem pausesLead_sends (frames : List String) : PausesLead (frames.map .send) := by
  induction frames with
  | nil => exact .nil
  | cons frame frames ih => exact .send frame ih

/-- Actions that begin with none that stores send a frame before they store anything. -/
theorem PausesLead.exists_frame {action : Action} {later : List Action} (h : PausesLead (action :: later))
    (hstored : action.stored? = none) :
    ∃ frame after, (action :: later).filterMap Action.frame? = frame :: after.filterMap Action.frame? ∧
      ∀ sent, storings sent (action :: later) = storings (sent + 1) after := by
  cases h with
  | send frame h => exact ⟨frame, later, rfl, fun _ => rfl⟩
  | store response h => cases hstored
  | @pause ms frame after h => exact ⟨frame, after, rfl, fun _ => rfl⟩

theorem length_frames_cons (action : Action) (later : List Action) :
    ((action :: later).filterMap Action.frame?).length =
      action.frame?.toList.length + (later.filterMap Action.frame?).length := by
  rw [List.filterMap_cons]
  cases action.frame? with
  | none => exact (Nat.zero_add _).symm
  | some frame => exact Nat.add_comm _ 1

section Located

variable {α : Type} (what? : Action → Option α)

theorem located_append (sent : Nat) (done rest : List Action) :
    located what? sent (done ++ rest) =
      located what? sent done ++ located what? (sent + (done.filterMap Action.frame?).length) rest := by
  induction done generalizing sent with
  | nil => rfl
  | cons action done ih =>
    rw [List.cons_append, located, located, ih, length_frames_cons, List.append_assoc, Nat.add_assoc]

theorem located_of_forall_eq_none {actions : List Action} (h : ∀ action ∈ actions, what? action = none) (sent : Nat) :
    located what? sent actions = [] := by
  induction actions generalizing sent with
  | nil => rfl
  | cons action actions ih =>
    rw [located, h action List.mem_cons_self, ih fun a ha => h a (List.mem_cons_of_mem action ha)]
    rfl

theorem map_snd_located (sent : Nat) (actions : List Action) :
    (located what? sent actions).map Prod.snd = actions.filterMap what? := by
  induction actions generalizing sent with
  | nil => rfl
  | cons action actions ih =>
    rw [located, List.map_append, ih, List.filterMap_cons]
    cases what? action <;> rfl

theorem mem_located {sent : Nat} {actions : List Action} {q : Nat × α} (h : q ∈ located what? sent actions) :
    sent ≤ q.1 ∧ q.1 ≤ sent + (actions.filterMap Action.frame?).length := by
  induction actions generalizing sent with
  | nil => cases h
  | cons action actions ih =>
    rw [length_frames_cons]
    rcases List.mem_append.1 h with h | h
    · obtain ⟨a, -, rfl⟩ := List.mem_map.1 h
      exact ⟨Nat.le_refl _, Nat.le_add_right _ _⟩
    · have := ih h
      omega

end Located

theorem storings_eq_located (sent : Nat) (actions : List Action) :
    storings sent actions = located Action.stored? sent actions := by
  fun_induction storings sent actions with
  | case1 => rfl
  | case2 sent frame later ih => exact ih
  | case3 sent ms later ih => exact ih
  | case4 sent response later ih => exact congrArg ((sent, response) :: ·) ih

theorem storings_append (sent : Nat) (done rest : List Action) :
    storings sent (done ++ rest) =
      storings sent done ++ storings (sent + (done.filterMap Action.frame?).length) rest := by
  simp only [storings_eq_located, located_append]

theorem storings_sends (sent : Nat) (frames : List String) : storings sent (frames.map .send) = [] := by
  rw [storings_eq_located]
  exact located_of_forall_eq_none _ (by simp [Action.stored?]) sent

theorem map_snd_storings (sent : Nat) (actions : List Action) :
    (storings sent actions).map Prod.snd = actions.filterMap Action.stored? := by
  rw [storings_eq_located, map_snd_located]

theorem mem_storings {sent : Nat} {actions : List Action} {s : Nat × StoredResponse} (h : s ∈ storings sent actions) :
    sent ≤ s.1 ∧ s.1 ≤ sent + (actions.filterMap Action.frame?).length := by
  rw [storings_eq_located] at h
  exact mem_located _ h

theorem filter_storings_of_le {n sent : Nat} {actions : List Action}
    (h : sent + (actions.filterMap Action.frame?).length ≤ n) :
    (storings sent actions).filter (fun s => s.1 ≤ n) = storings sent actions := by
  rw [List.filter_eq_self]
  intro s hs
  exact decide_eq_true (Nat.le_trans (mem_storings hs).2 h)

theorem PausesLead.filter_storings_eq_nil {action : Action} {later : List Action} (h : PausesLead (action :: later))
    (hstored : action.stored? = none) (n : Nat) :
    (storings n (action :: later)).filter (fun s => s.1 ≤ n) = [] := by
  obtain ⟨frame, after, -, hlater⟩ := h.exists_frame hstored
  rw [List.filter_eq_nil_iff, hlater]
  intro s hs hle
  have := (mem_storings hs).1
  have := of_decide_eq_true hle
  omega

/-- Up to a point where nothing is stored next, that is stored which is stored before more frames are sent
than up to there. -/
theorem PausesLead.stored_of_append {done rest : List Action} (h : PausesLead (done ++ rest)) {n : Nat}
    (hn : (done.filterMap Action.frame?).length = n)
    (hrest : ∀ action later, rest = action :: later → action.stored? = none) :
    ((storings 0 (done ++ rest)).filter fun s => s.1 ≤ n).map Prod.snd = done.filterMap Action.stored? := by
  have hlost : (storings n rest).filter (fun s => s.1 ≤ n) = [] := by
    cases rest with
    | nil => rfl
    | cons action later => exact h.of_append.filter_storings_eq_nil (hrest action later rfl) n
  rw [storings_append, Nat.zero_add, hn, List.filter_append, hlost, List.append_nil,
    filter_storings_of_le (by omega), map_snd_storings]

/-! ## Runs with a limit -/

/-- What a collector that closes after a number of frames has of actions, and what its run did. -/
structure Run.CutAt (n : Nat) (actions : List Action) (r : Run Collector) : Prop where
  frames : r.collector.frames.toList = (actions.filterMap Action.frame?).take n
  taken : r.taken = min n (actions.filterMap Action.frame?).length
  stored : r.stored = ((storings 0 actions).filter fun s => s.1 ≤ n).map Prod.snd
  outcome : r.outcome = if (actions.filterMap Action.frame?).length ≤ n then .completed else .disconnected

theorem perform_cutAt (n : Nat) {actions : List Action} (h : PausesLead actions) :
    (perform (Collector.empty (some n)) actions).CutAt n actions := by
  obtain ⟨done, rest, rfl, hstop⟩ := exists_stopsAfter (Collector.empty (some n)) actions
  have hframes : (perform (Collector.empty (some n)) (done ++ rest)).collector.frames.toList =
      done.filterMap Action.frame? := (Collector.frames_of_takeAll? hstop.frames).trans (List.nil_append _)
  obtain ⟨hlimit, hsize⟩ :=
    Collector.size_le_of_takeAll? (c := Collector.empty (some n)) rfl (Nat.zero_le n) hstop.frames
  have hlength := congrArg List.length hframes
  rw [Array.length_toList] at hlength
  rw [hlength] at hsize
  rcases hstop.ending with ⟨houtcome, rfl⟩ | ⟨houtcome, action, later, rfl, hrefused⟩
  · rw [List.append_nil] at *
    refine ⟨?_, ?_, ?_, ?_⟩
    · rw [hframes, List.take_of_length_le hsize]
    · rw [hstop.taken, Nat.min_eq_right hsize]
    · rw [hstop.stored, filter_storings_of_le (by omega), map_snd_storings]
    · rw [houtcome, if_pos hsize]
  · have hfull := Collector.le_size_of_isRefused hlimit hrefused
    rw [hlength] at hfull
    have hn : (done.filterMap Action.frame?).length = n := Nat.le_antisymm hsize hfull
    have hstored := stored?_of_isRefused hrefused
    obtain ⟨frame, after, hrest, -⟩ := h.of_append.exists_frame hstored
    refine ⟨?_, ?_, ?_, ?_⟩
    · rw [hframes, List.filterMap_append, List.take_append_of_le_length (Nat.le_of_eq hn.symm), ← hn, List.take_length]
    · rw [hstop.taken, List.filterMap_append, List.length_append]
      omega
    · have hfirst : ∀ action' later', action :: later = action' :: later' → action'.stored? = none := by
        rintro _ _ ⟨⟩
        exact hstored
      rw [hstop.stored, h.stored_of_append hn hfirst]
    · rw [houtcome, if_neg]
      rw [List.filterMap_append, hrest, List.length_append, List.length_cons]
      omega

/-- Whatever its limit, a collector has the first frames of actions, as many as its run says. -/
theorem frames_perform_eq_take (limit : Option Nat) {actions : List Action} (h : PausesLead actions) :
    (perform (Collector.empty limit) actions).collector.frames.toList =
        (actions.filterMap Action.frame?).take (perform (Collector.empty limit) actions).taken ∧
      (perform (Collector.empty limit) actions).taken ≤ (actions.filterMap Action.frame?).length := by
  cases limit with
  | some n =>
    have hcut := perform_cutAt n h
    rw [hcut.frames, hcut.taken, ← List.take_eq_take_min]
    exact ⟨rfl, Nat.min_le_right _ _⟩
  | none =>
    rw [(Collector.perform_unlimited actions).taken, List.take_length]
    exact ⟨Collector.frames_perform_unlimited actions, Nat.le_refl _⟩

/-! ## Responses -/

/-- A framer that makes a frame at least of every unit. -/
def Framer.Speaks (σ : Type) [Framer σ] : Prop := ∀ (s : σ) (u : OutputUnit), (Framer.answer s u).2 ≠ []

theorem OpenAi.speaks : Framer.Speaks OpenAi.State := by
  rintro s (u | u)
  · exact List.cons_ne_nil _ _
  · show (s.toolEvents u).map OpenAi.Event.frame ≠ []
    obtain ⟨piece, pieces, hpieces⟩ := List.exists_cons_of_ne_nil (chunkText_ne_nil u.arguments u.chunkSize)
    simp [OpenAi.State.toolEvents, hpieces]

theorem Anthropic.speaks : Framer.Speaks Anthropic.State := by
  rintro s (u | u)
  · show (s.textEvents u).map Anthropic.Event.frame ≠ []
    simp [Anthropic.State.textEvents]
  · show (s.toolEvents u).map Anthropic.Event.frame ≠ []
    simp [Anthropic.State.toolEvents]

theorem Gemini.speaks : Framer.Speaks Gemini.State := by
  rintro s (u | u) <;> exact List.cons_ne_nil _ _

section Walk

variable {σ : Type} [Framer σ] (hσ : Framer.Speaks σ) (x : Context)
include hσ

theorem pausesLead_unitActions (provider : Provider) (s : σ) (calls : Nat) (us : List (Nat × OutputUnit)) :
    PausesLead (unitActions x provider s calls us).1 := by
  induction us generalizing s calls with
  | nil => exact .nil
  | cons pu us ih =>
    obtain ⟨pause, u⟩ := pu
    have hsends := (pausesLead_sends (Framer.answer s u).2).append (ih (Framer.answer s u).1 (u.callsAfter calls))
    rw [unitActions, List.append_assoc]
    cases u with
    | tool u => exact .store _ hsends
    | text u =>
      obtain ⟨frame, frames, hframes⟩ := List.exists_cons_of_ne_nil (hσ s (.text u))
      rw [hframes] at hsends
      rw [hframes, leadActions]
      cases u.first with
      | true => exact hsends
      | false => exact .pause pause hsends

theorem pausesLead_schedule (s : σ) (cs : List Command) : PausesLead (schedule x s cs) := by
  rw [← schedule_spoken, schedule_eq x s (spoken_ne_nil cs)]
  exact (pausesLead_unitActions hσ x _ s 0 _).append (pausesLead_sends _)

end Walk

theorem Provider.pausesLead_schedule (p : Provider) (x : Context) (replyId : String) (cs : List Command) :
    PausesLead (p.schedule x replyId cs) := by
  cases p with
  | openAi => exact Stream.pausesLead_schedule OpenAi.speaks x _ cs
  | anthropic => exact Stream.pausesLead_schedule Anthropic.speaks x _ cs
  | gemini => exact Stream.pausesLead_schedule Gemini.speaks x _ cs

end ScriptedModel.Stream
