/-
The pace of a response. A latency is found once for each command, and a chunk of text waits for that of its
command unless the response begins with it; a call never waits.

Main statement: a collector with a limit makes a response wait before those of its later chunks that have
fewer frames before them than the limit, and before nothing else. How long the pauses are changes neither
the frames nor how the response ends nor what is stored.
-/
import ScriptedModel.Proofs.Stream.Interruption

namespace ScriptedModel.Stream

open Script (Command Settings)

/-! ## Latencies -/

/-- The latencies that settings allow. -/
inductive Allows (defaultLatency : Nat) : Settings → Nat → Prop
  | fixed {s : Settings} {ms : Nat} (h : s.chunkLatency = some ms) : Allows defaultLatency s ms
  | drawn {s : Settings} {a b ms : Nat} (h : s.chunkLatency = none) (hrange : s.randomLatency = some (a, b))
    (hlow : min a b ≤ ms) (hhigh : ms ≤ max a b) : Allows defaultLatency s ms
  | preset {s : Settings} (h : s.chunkLatency = none) (hrange : s.randomLatency = none) :
    Allows defaultLatency s defaultLatency

/-- A draw gives every latency that settings allow, and no other. -/
theorem allows_iff {defaultLatency ms : Nat} {s : Settings} :
    Allows defaultLatency s ms ↔ ∃ draw, latency defaultLatency draw s = ms := by
  constructor
  · rintro (h | ⟨h, hrange, hlow, hhigh⟩ | ⟨h, hrange⟩)
    · exact ⟨0, by simp [latency, h]⟩
    · rename_i a b
      refine ⟨ms - min a b, ?_⟩
      have hmod : (ms - min a b) % (max a b - min a b + 1) = ms - min a b := Nat.mod_eq_of_lt (by omega)
      simp only [latency, h, hrange, drawBetween, hmod]
      omega
    · exact ⟨0, by simp [latency, h, hrange]⟩
  · rintro ⟨draw, rfl⟩
    unfold latency
    split
    case h_1 h => exact .fixed h
    case h_2 a b h hrange =>
      have hmod : draw % (max a b - min a b + 1) < max a b - min a b + 1 := Nat.mod_lt _ (Nat.succ_pos _)
      refine .drawn h hrange ?_ ?_ <;> unfold drawBetween <;> omega
    case h_3 h hrange => exact .preset h hrange

/-! ## Pauses and the frames before them -/

theorem located_pauses_sends (sent : Nat) (frames : List String) :
    located Action.pause? sent (frames.map .send) = [] :=
  located_of_forall_eq_none _ (by simp [Action.pause?]) sent

theorem pauses_map_send (frames : List String) : (frames.map Action.send).filterMap Action.pause? = [] := by
  rw [← map_snd_located Action.pause? 0, located_pauses_sends]
  rfl

namespace Collector

/-- Whether a collector that has a number of frames is not closed yet. -/
theorem isClosed_eq_not (c : Collector) : c.isClosed = !c.limit.all (fun n => c.frames.size < n) := by
  unfold isClosed
  cases c.limit with
  | none => rfl
  | some n => simp only [Option.any_some, Option.all_some, ← decide_not, Nat.not_lt]

/-- A collector waits for the pauses that come before it has as many frames as its limit. -/
theorem pauses_perform (c : Collector) (actions : List Action) :
    (perform c actions).pauses =
      ((located Action.pause? c.frames.size actions).filter fun q => c.limit.all (fun n => q.1 < n)).map Prod.snd := by
  -- Where the collector is closed, no later pause is waited for.
  have hclosed : ∀ (c : Collector) (actions : List Action), c.isClosed = true →
      (located Action.pause? c.frames.size actions).filter (fun q => c.limit.all (fun n => q.1 < n)) = [] := by
    intro c actions hc
    rw [isClosed_eq_not] at hc
    rw [List.filter_eq_nil_iff]
    intro q hq hlt
    have hle := (mem_located _ hq).1
    cases hlimit : c.limit with
    | none => simp [hlimit] at hc
    | some n =>
      simp only [hlimit, Option.all_some, decide_eq_true_eq, Bool.not_eq_true', decide_eq_false_iff_not] at hc hlt
      omega
  fun_induction perform c actions with
  | case1 c => rfl
  | case2 c frame rest c' hsend r ih =>
    cases send?_eq_some hsend
    rw [Array.size_push] at ih
    exact ih
  | case3 c frame rest hsend =>
    rw [hclosed c _ ((send?_eq_none_iff frame).1 hsend)]
    rfl
  | case4 c ms rest hc =>
    rw [hclosed c _ hc]
    rfl
  | case5 c ms rest hc r ih =>
    have hopen : c.limit.all (fun n => c.frames.size < n) = true := by
      have hnot : c.isClosed = false := Bool.eq_false_iff.2 hc
      rw [isClosed_eq_not] at hnot
      simpa using hnot
    show _ = (((c.frames.size, ms) :: located Action.pause? c.frames.size rest).filter _).map Prod.snd
    rw [List.filter_cons, if_pos hopen, List.map_cons, ← ih]
  | case6 c response rest r ih => exact ih

end Collector

/-! ## Pauses of units -/

section Walk

variable {σ : Type} [Framer σ]

/-- The frames that a framer makes of each unit. -/
def Framer.unitFrames : σ → List OutputUnit → List (List String)
  | _, [] => []
  | s, u :: us => (Framer.answer s u).2 :: unitFrames (Framer.answer s u).1 us

theorem Framer.flatten_unitFrames (s : σ) (us : List OutputUnit) :
    (Framer.unitFrames s us).flatten = (Framer.answerAll s us).2 := by
  induction us generalizing s with
  | nil => rfl
  | cons u us ih => rw [unitFrames, List.flatten_cons, ih, answerAll]

theorem Framer.length_unitFrames (s : σ) (us : List OutputUnit) : (Framer.unitFrames s us).length = us.length := by
  induction us generalizing s with
  | nil => rfl
  | cons u us ih => rw [unitFrames, List.length_cons, ih, List.length_cons]

/-- Whether a unit waits: it is text, and the response does not begin with it. -/
def OutputUnit.waits (u : OutputUnit) : Bool := !u.isCall && !u.first

variable (x : Context) (provider : Provider)

theorem located_leadActions (sent pause calls : Nat) (u : OutputUnit) :
    located Action.pause? sent (leadActions x provider pause calls u) = if u.waits then [(sent, pause)] else [] := by
  rcases u with u | u
  · cases h : u.first <;>
      simp [leadActions, located, Action.pause?, OutputUnit.waits, OutputUnit.first, OutputUnit.isCall, OutputUnit.matter,
        Matter.isCall, h]
  · rfl

/-- The pause before the unit at an index, if it waits, with the frames sent before it. -/
def waitAt? (s : σ) (sent : Nat) (us : List (Nat × OutputUnit)) (j : Nat) : Option (Nat × Nat) :=
  (us[j]?.filter fun u => u.2.waits).map fun u =>
    (sent + ((Framer.unitFrames s (us.map Prod.snd)).take j).flatten.length, u.1)

theorem waitAt?_zero (s : σ) (sent pause : Nat) (u : OutputUnit) (us : List (Nat × OutputUnit)) :
    waitAt? s sent ((pause, u) :: us) 0 = if u.waits then some (sent, pause) else none := by
  unfold waitAt?
  rw [List.getElem?_cons_zero, Option.filter_some]
  cases u.waits <;> rfl

theorem waitAt?_succ (s : σ) (sent pause : Nat) (u : OutputUnit) (us : List (Nat × OutputUnit)) (j : Nat) :
    waitAt? s sent ((pause, u) :: us) (j + 1) =
      waitAt? (Framer.answer s u).1 (sent + (Framer.answer s u).2.length) us j := by
  simp [waitAt?, Framer.unitFrames, Nat.add_assoc]

theorem located_unitActions (s : σ) (sent calls : Nat) (us : List (Nat × OutputUnit)) :
    located Action.pause? sent (unitActions x provider s calls us).1 =
      (List.range us.length).filterMap (waitAt? s sent us) := by
  induction us generalizing s sent calls with
  | nil => rfl
  | cons pu us ih =>
    obtain ⟨pause, u⟩ := pu
    rw [unitActions, located_append, located_append, located_pauses_sends, List.append_nil, located_leadActions,
      List.filterMap_append, frames_leadActions, frames_map_send, List.nil_append, ih, List.length_cons,
      List.range_succ_eq_map, List.filterMap_cons, List.filterMap_map, waitAt?_zero]
    have hlater : waitAt? s sent ((pause, u) :: us) ∘ Nat.succ =
        waitAt? (Framer.answer s u).1 (sent + (Framer.answer s u).2.length) us :=
      funext fun j => waitAt?_succ s sent pause u us j
    rw [hlater]
    cases u.waits <;> rfl

/-! ## Pauses of responses -/

/-- The pause before the unit at an index of a response, where the frames of the units are given: it is text,
it is not the first, and fewer frames than the limit come before it. -/
def delayAt? (frames : List (List String)) (cs : List Command) (limit : Option Nat) (j : Nat) : Option Nat :=
  if j ≠ 0 ∧ (cs.flatMap matter)[j]?.any (fun m => !m.isCall) ∧ limit.all (fun n => (frames.take j).flatten.length < n)
  then (pauses x 0 cs)[j]? else none

theorem waits_iff {cs : List Command} {j : Nat} {u : OutputUnit} (hu : (units x cs)[j]? = some u) :
    u.waits = true ↔ j ≠ 0 ∧ (cs.flatMap matter)[j]?.any (fun m => !m.isCall) := by
  obtain ⟨hfirst, -⟩ := marks_place x.callId true 0 (cs.flatMap matter) j u hu
  have hmatter : (cs.flatMap matter)[j]? = some u.matter := by
    rw [← matter_place x.callId true 0 (cs.flatMap matter), List.getElem?_map, ← units, hu]
    rfl
  rw [hmatter]
  simp [OutputUnit.waits, OutputUnit.isCall, hfirst, and_comm]

theorem delayAt?_eq (s : σ) (cs : List Command) (limit : Option Nat) {j : Nat} (hj : j < (cs.flatMap matter).length) :
    ((waitAt? s 0 ((pauses x 0 cs).zip (units x cs)) j).filter fun q => limit.all (fun n => q.1 < n)).map Prod.snd =
      delayAt? x (Framer.unitFrames s (units x cs)) cs limit j := by
  obtain ⟨u, hu⟩ : ∃ u, (units x cs)[j]? = some u :=
    Option.isSome_iff_exists.1 (by rw [isSome_getElem?, units, length_place]; exact hj)
  obtain ⟨pause, hpause⟩ : ∃ pause, (pauses x 0 cs)[j]? = some pause :=
    Option.isSome_iff_exists.1 (by rw [isSome_getElem?, length_pauses]; exact hj)
  have hzip : ((pauses x 0 cs).zip (units x cs))[j]? = some (pause, u) :=
    List.getElem?_zip_eq_some.2 ⟨hpause, hu⟩
  unfold waitAt? delayAt?
  rw [hzip, zip_pauses_units, Nat.zero_add, hpause, Option.filter_some]
  simp only [← and_assoc, ← waits_iff x hu]
  cases u.waits with
  | false => rfl
  | true =>
    rw [if_pos rfl, Option.map_some, Option.filter_some]
    cases limit.all fun n => decide (((Framer.unitFrames s (units x cs)).take j).flatten.length < n) <;> rfl

theorem pauses_schedule (s : σ) (cs : List Command) (limit : Option Nat) :
    (perform (Collector.empty limit) (schedule x s cs)).pauses =
      (List.range ((spoken cs).flatMap matter).length).filterMap
        (delayAt? x (Framer.unitFrames s (units x (spoken cs))) (spoken cs) limit) := by
  have hlength : ((pauses x 0 (spoken cs)).zip (units x (spoken cs))).length = ((spoken cs).flatMap matter).length := by
    rw [List.length_zip, units, length_place, length_pauses, Nat.min_self]
  have hlocated : located Action.pause? 0 (schedule x s cs) = (List.range ((spoken cs).flatMap matter).length).filterMap
      (waitAt? s 0 ((pauses x 0 (spoken cs)).zip (units x (spoken cs)))) := by
    rw [← schedule_spoken, schedule_eq x s (spoken_ne_nil cs), located_append, located_unitActions, closeActions,
      located_pauses_sends, List.append_nil, hlength]
  rw [Collector.pauses_perform]
  show ((located Action.pause? 0 _).filter fun q => limit.all (fun n => q.1 < n)).map Prod.snd = _
  rw [hlocated, List.filter_filterMap, List.map_filterMap]
  exact List.filterMap_congr fun j hj => delayAt?_eq x s (spoken cs) limit (List.mem_range.1 hj)

theorem pauses_append (n : Nat) (cs ds : List Command) :
    pauses x n (cs ++ ds) = pauses x n cs ++ pauses x (n + cs.length) ds := by
  induction cs generalizing n with
  | nil => rfl
  | cons c cs ih =>
    rw [List.cons_append, pauses, ih, pauses, List.append_assoc, List.length_cons, Nat.add_assoc, Nat.add_comm 1]

/-- All units of a command have the latency that is found for it. -/
theorem getElem?_pauses (before : List Command) (c : Command) (after : List Command) {j : Nat}
    (hj : j < (matter c).length) :
    (pauses x 0 (before ++ c :: after))[(before.flatMap matter).length + j]? =
      some (latency x.defaultLatency (x.draw before.length) c.settings) := by
  rw [pauses_append, ← length_pauses x 0 before, List.getElem?_append_right (Nat.le_add_right _ _),
    Nat.add_sub_cancel_left, pauses, List.getElem?_append_left (by rwa [List.length_map]), List.getElem?_map,
    List.getElem?_eq_getElem hj, Nat.zero_add]
  rfl

/-! ## How many pauses there are -/

/-- The chunks of the text of a command. -/
def textChunks (c : Command) : List String :=
  match c.directive with
  | .say content => chunkText content (effectiveSize content c.settings.chunkSize)
  | .toolCall _ _ => []

theorem length_pauses_unitActions (s : σ) (calls : Nat) (us : List (Nat × OutputUnit)) :
    ((unitActions x provider s calls us).1.filterMap Action.pause?).length =
      (us.map Prod.snd).countP OutputUnit.waits := by
  induction us generalizing s calls with
  | nil => rfl
  | cons pu us ih =>
    obtain ⟨pause, u⟩ := pu
    rw [unitActions, List.filterMap_append, List.filterMap_append, ← map_snd_located Action.pause? 0 (leadActions _ _ _ _ _),
      located_leadActions, pauses_map_send, List.append_nil, List.length_append, ih, List.map_cons, List.countP_cons]
    cases u.waits <;> simp [Nat.add_comm]

theorem countP_waits_place (callId : Nat → String) (calls : Nat) (ms : List Matter) :
    (place callId false calls ms).countP OutputUnit.waits = ms.countP fun m => !m.isCall := by
  induction ms generalizing calls with
  | nil => rfl
  | cons m ms ih => cases m <;> rw [place, List.countP_cons, List.countP_cons, ih] <;> rfl

theorem countP_matter (c : Command) : (matter c).countP (fun m => !m.isCall) = (textChunks c).length := by
  obtain ⟨content | ⟨toolName, arguments⟩, settings⟩ := c
  · rw [matter, List.countP_map]
    exact List.countP_eq_length.2 fun _ _ => rfl
  · rfl

/-- All chunks wait but the one that the response begins with. -/
theorem countP_waits_units (cs : List Command) :
    (units x cs).countP OutputUnit.waits =
      (cs.flatMap textChunks).length - if cs.head?.any (fun c => !c.isToolCall) then 1 else 0 := by
  have htotal : (cs.flatMap matter).countP (fun m => !m.isCall) = (cs.flatMap textChunks).length := by
    induction cs with
    | nil => rfl
    | cons c cs ih =>
      rw [List.flatMap_cons, List.countP_append, countP_matter, ih, List.flatMap_cons, List.length_append]
  have hfirst : (cs.flatMap matter).head?.any (fun m => !m.isCall) = cs.head?.any (fun c => !c.isToolCall) := by
    rcases cs with _ | ⟨⟨content | ⟨toolName, arguments⟩, settings⟩, cs⟩
    · rfl
    · obtain ⟨chunk, chunks, h⟩ :=
        List.exists_cons_of_ne_nil (chunkText_ne_nil content (effectiveSize content settings.chunkSize))
      have hmatter : matter ⟨.say content, settings⟩ = .text chunk :: chunks.map .text :=
        congrArg (List.map Matter.text) h
      rw [List.flatMap_cons, hmatter]
      rfl
    · rfl
  rw [← htotal, ← hfirst, units]
  cases cs.flatMap matter with
  | nil => rfl
  | cons m ms => cases m <;> rw [place, List.countP_cons, List.countP_cons, countP_waits_place] <;> rfl

end Walk

/-! ## What pauses do not change -/

/-- The action, but that a pause is for no time. -/
def Action.unpaced : Action → Action
  | .pause _ => .pause 0
  | action => action

/-- The run, but that its pauses were for no time. -/
def Run.unpaced {κ : Type} (r : Run κ) : Run κ := { r with pauses := r.pauses.map fun _ => 0 }

/-- Actions that pause for no time do the same otherwise. -/
theorem perform_unpaced {κ : Type} [Sink κ] (k : κ) (actions : List Action) :
    perform k (actions.map Action.unpaced) = (perform k actions).unpaced := by
  induction actions generalizing k with
  | nil => rfl
  | cons action later ih =>
    cases action with
    | send frame =>
      show perform k (.send frame :: later.map Action.unpaced) = _
      rw [perform, perform]
      cases Sink.send? k frame with
      | none => rfl
      | some k' =>
        simp only [ih]
        rfl
    | pause ms =>
      show perform k (.pause 0 :: later.map Action.unpaced) = _
      rw [perform, perform, ih]
      split <;> rfl
    | store response =>
      show perform k (.store response :: later.map Action.unpaced) = _
      rw [perform, perform, ih]
      rfl

/-- Commands that differ in their latencies at most. -/
def AlikeButLatency (c d : Command) : Prop :=
  c.directive = d.directive ∧ c.settings.chunkSize = d.settings.chunkSize

theorem matter_of_alike {c d : Command} (h : AlikeButLatency c d) : matter c = matter d := by
  obtain ⟨directive, settings⟩ := c
  obtain ⟨directive', settings'⟩ := d
  obtain ⟨rfl, hsize⟩ := h
  unfold matter
  rw [hsize]

section Walk

variable {σ : Type} [Framer σ] (x y : Context)

theorem unpaced_unitActions (htimes : x.callTime = y.callTime) (provider : Provider) (s : σ) (calls : Nat)
    {us vs : List (Nat × OutputUnit)} (h : us.map Prod.snd = vs.map Prod.snd) :
    (unitActions x provider s calls us).1.map Action.unpaced =
      (unitActions y provider s calls vs).1.map Action.unpaced := by
  have hlead : ∀ pause pause' calls u, (leadActions x provider pause calls u).map Action.unpaced =
      (leadActions y provider pause' calls u).map Action.unpaced := by
    rintro pause pause' calls (u | u)
    · cases hfirst : u.first <;> simp [leadActions, hfirst, Action.unpaced]
    · rw [leadActions, leadActions, htimes]
  induction us generalizing s calls vs with
  | nil =>
    rw [List.map_nil] at h
    rw [List.map_eq_nil_iff.1 h.symm]
    rfl
  | cons pu us ih =>
    obtain ⟨⟨pause', u⟩, vs, rfl, rfl, hrest⟩ := List.map_eq_cons_iff.1 h.symm
    obtain ⟨pause, _⟩ := pu
    simp only [unitActions, List.map_append, hlead pause pause', ih _ _ hrest.symm]

theorem unpaced_schedule (htimes : x.callTime = y.callTime) (hcalls : x.callId = y.callId) (s : σ)
    {cs ds : List Command} (h : List.Forall₂ AlikeButLatency cs ds) :
    (schedule x s cs).map Action.unpaced = (schedule y s ds).map Action.unpaced := by
  have hmatter : (spoken cs).flatMap matter = (spoken ds).flatMap matter :=
    flatMap_spoken_congr (f := matter) (fun _ _ => matter_of_alike) h
  have hunits : units x (spoken cs) = units y (spoken ds) := by
    rw [units, units, hcalls, hmatter]
  have hactions := unpaced_unitActions x y htimes (Framer.provider s) s 0
    ((zip_pauses_units x (spoken cs)).trans (hunits.trans (zip_pauses_units y (spoken ds)).symm))
  rw [← schedule_spoken, ← schedule_spoken y, schedule_eq x s (spoken_ne_nil cs), schedule_eq y s (spoken_ne_nil ds),
    List.map_append, List.map_append, hactions, hunits]

end Walk

/-! ## Responses -/

namespace Provider

variable (p : Provider) (x : Context) (replyId : String) (cs : List Command)

/-- The frames of each unit of a response that is not cut short. -/
def unitFrames : List (List String) :=
  let us := units x (spoken cs)
  match p with
  | .openAi => Framer.unitFrames (OpenAi.State.initial replyId x.created x.model) us
  | .anthropic => Framer.unitFrames (Anthropic.State.initial replyId x.model) us
  | .gemini => Framer.unitFrames Gemini.State.ready us

theorem length_unitFrames : (p.unitFrames x replyId cs).length = ((spoken cs).flatMap matter).length := by
  rw [← length_place x.callId true 0 ((spoken cs).flatMap matter), ← units]
  cases p <;> exact Framer.length_unitFrames _ _

theorem exists_closing : ∃ closing,
    (p.schedule x replyId cs).filterMap Action.frame? = (p.unitFrames x replyId cs).flatten ++ closing := by
  have hframes : ∀ {σ : Type} [Framer σ] (s : σ), ∃ closing, (Stream.schedule x s cs).filterMap Action.frame? =
      (Framer.unitFrames s (units x (spoken cs))).flatten ++ closing := by
    intro σ _ s
    rw [← schedule_spoken, frames_schedule x s (spoken_ne_nil cs), Framer.framesOf, Framer.flatten_unitFrames]
    exact ⟨_, rfl⟩
  cases p <;> exact hframes _

theorem pauses_schedule (limit : Option Nat) :
    (perform (Collector.empty limit) (p.schedule x replyId cs)).pauses =
      (List.range ((spoken cs).flatMap matter).length).filterMap
        (delayAt? x (p.unitFrames x replyId cs) (spoken cs) limit) := by
  cases p <;> exact Stream.pauses_schedule x _ cs limit

theorem length_pauses_schedule : ((p.schedule x replyId cs).filterMap Action.pause?).length =
    ((spoken cs).flatMap textChunks).length - if (spoken cs).head?.any (fun c => !c.isToolCall) then 1 else 0 := by
  have hpauses : ∀ {σ : Type} [Framer σ] (s : σ), ((Stream.schedule x s cs).filterMap Action.pause?).length =
      (units x (spoken cs)).countP OutputUnit.waits := by
    intro σ _ s
    rw [← schedule_spoken, schedule_eq x s (spoken_ne_nil cs), List.filterMap_append, List.length_append,
      length_pauses_unitActions, zip_pauses_units, closeActions, pauses_map_send]
    rfl
  rw [← countP_waits_units x]
  cases p <;> exact hpauses _

theorem unpaced_schedule (defaultLatency : Nat) (draw : Nat → Nat) {ds : List Command}
    (h : List.Forall₂ AlikeButLatency cs ds) :
    (p.schedule x replyId cs).map Action.unpaced =
      (p.schedule { x with defaultLatency, draw } replyId ds).map Action.unpaced := by
  have hactions : ∀ {σ : Type} [Framer σ] (s : σ), (Stream.schedule x s cs).map Action.unpaced =
      (Stream.schedule { x with defaultLatency, draw } s ds).map Action.unpaced :=
    fun s => Stream.unpaced_schedule x { x with defaultLatency, draw } rfl rfl s h
  cases p <;> exact hactions _

end Provider

/-- How long a response waits, and where, when a collector with a limit takes it. -/
structure IsPaced (p : Provider) (x : Context) (replyId : String) (cs : List Command) (limit : Option Nat) : Prop where
  pauses : (perform (Collector.empty limit) (p.schedule x replyId cs)).pauses =
    (List.range ((spoken cs).flatMap matter).length).filterMap
      (delayAt? x (p.unitFrames x replyId cs) (spoken cs) limit)
  unitFrames : (p.unitFrames x replyId cs).length = ((spoken cs).flatMap matter).length ∧ ∃ closing,
    (perform (Collector.empty none) (p.schedule x replyId cs)).collector.frames.toList =
      (p.unitFrames x replyId cs).flatten ++ closing
  latencies : ∀ before c after, spoken cs = before ++ c :: after → ∃ ms, Allows x.defaultLatency c.settings ms ∧
    ∀ j < (matter c).length, (Stream.pauses x 0 (spoken cs))[(before.flatMap matter).length + j]? = some ms
  count : (perform (Collector.empty limit) (p.schedule x replyId cs)).outcome = .completed →
    (perform (Collector.empty limit) (p.schedule x replyId cs)).pauses.length =
      ((spoken cs).flatMap textChunks).length - if (spoken cs).head?.any (fun c => !c.isToolCall) then 1 else 0
  others : ∀ defaultLatency draw ds, List.Forall₂ AlikeButLatency cs ds →
    let run := perform (Collector.empty limit) (p.schedule x replyId cs)
    let other := perform (Collector.empty limit)
      (p.schedule { x with defaultLatency, draw } replyId ds)
    other.collector = run.collector ∧ other.taken = run.taken ∧ other.stored = run.stored ∧
      other.outcome = run.outcome

/-- A response waits before those of its chunks, the first unit apart, that have fewer frames before them than
the limit, each for the latency of its command; the latencies change nothing else. -/
theorem perform_isPaced (p : Provider) (x : Context) (replyId : String) (cs : List Command) (limit : Option Nat) :
    IsPaced p x replyId cs limit := by
  constructor
  case pauses => exact p.pauses_schedule x replyId cs limit
  case unitFrames =>
    refine ⟨p.length_unitFrames x replyId cs, ?_⟩
    rw [Collector.frames_perform_unlimited]
    exact p.exists_closing x replyId cs
  case latencies =>
    rintro before c after h
    refine ⟨_, allows_iff.2 ⟨x.draw before.length, rfl⟩, fun j hj => ?_⟩
    rw [h]
    exact getElem?_pauses x before c after hj
  case count =>
    intro hcompleted
    rw [(perform_delivers hcompleted).pauses]
    exact p.length_pauses_schedule x replyId cs
  case others =>
    intro defaultLatency draw ds h run other
    have hrun : other.unpaced = run.unpaced := by
      rw [← perform_unpaced, ← perform_unpaced, p.unpaced_schedule x replyId cs defaultLatency draw h]
    exact ⟨congrArg (·.collector) hrun, congrArg (·.taken) hrun, congrArg (·.stored) hrun, congrArg (·.outcome) hrun⟩

end ScriptedModel.Stream
