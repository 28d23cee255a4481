/-
Which calls of a response are stored. A call is stored before its frames are sent, so a response that
is cut short has stored the calls whose frames would begin within the limit or right after it.

Main statements: the calls of a response are those of its commands, in order, under their identifiers;
and a collector that closes after n frames leaves those stored whose frames begin after no more than
n. Responses that are put into a store under new keys stand there after those that it has; under whatever
keys, they are found there, and what is found under other keys is what was found before.
-/
import Mathlib.Data.List.Nodup
import ScriptedModel.Proofs.Stream.Interruption

namespace ScriptedModel.Stream

open Script (Command)

/-! ## Storing -/

namespace ToolStore

theorem putEntry_of_notMem {key : String} (r : StoredResponse) {es : List (String × StoredResponse)}
    (h : key ∉ es.map Prod.fst) : putEntry key r es = es ++ [(key, r)] := by
  induction es with
  | nil => rfl
  | cons e es ih =>
    rw [List.map_cons, List.mem_cons, not_or] at h
    rw [putEntry, if_neg (Ne.symm h.1), ih h.2]
    rfl

theorem entries_putAll (s : ToolStore) {rs : List StoredResponse}
    (h : (s.entries.map Prod.fst ++ rs.map StoredResponse.callId).Nodup) :
    (s.putAll rs).entries = s.entries ++ rs.map fun r => (r.callId, r) := by
  induction rs generalizing s with
  | nil => exact (List.append_nil _).symm
  | cons r rs ih =>
    have hput : (s.put r.callId r).entries = s.entries ++ [(r.callId, r)] := by
      apply putEntry_of_notMem
      intro hmem
      rw [List.nodup_append] at h
      exact h.2.2 _ hmem _ List.mem_cons_self rfl
    have hnext : ((s.put r.callId r).entries.map Prod.fst ++ rs.map StoredResponse.callId).Nodup := by
      rw [hput]
      simpa using h
    show ((s.put r.callId r).putAll rs).entries = _
    rw [ih _ hnext, hput, List.append_assoc]
    rfl

theorem find?_putEntry (key sought : String) (r : StoredResponse) (es : List (String × StoredResponse)) :
    ((putEntry key r es).find? fun e => e.1 == sought) =
      if key = sought then some (key, r) else es.find? fun e => e.1 == sought := by
  have hhead : ∀ es : List (String × StoredResponse), (((key, r) :: es).find? fun e => e.1 == sought) =
      if key = sought then some (key, r) else es.find? fun e => e.1 == sought := by
    intro es
    split
    case isTrue h => exact List.find?_cons_of_pos (beq_iff_eq.2 h)
    case isFalse h => exact List.find?_cons_of_neg (by simpa using h)
  induction es with
  | nil => exact hhead []
  | cons e es ih =>
    unfold putEntry
    split
    case isTrue hkey =>
      rw [hhead, List.find?_cons, hkey]
      split
      · rfl
      case isFalse hne => rw [beq_false_of_ne hne]
    case isFalse hkey =>
      rw [List.find?_cons, List.find?_cons, ih]
      cases hsought : e.1 == sought with
      | false => rfl
      | true =>
        show some e = _
        rw [if_neg fun h => hkey ((beq_iff_eq.1 hsought).trans h.symm)]

theorem get?_put (s : ToolStore) (key sought : String) (r : StoredResponse) :
    (s.put key r).get? sought = if key = sought then some r else s.get? sought := by
  unfold get? put
  rw [find?_putEntry]
  split <;> rfl

/-- The last of the new responses with a key is found under it, or else what was kept before. -/
theorem get?_putAll (s : ToolStore) (rs : List StoredResponse) (key : String) :
    (s.putAll rs).get? key = (rs.reverse.find? fun r => r.callId == key).or (s.get? key) := by
  induction rs generalizing s with
  | nil => rfl
  | cons r rs ih =>
    have hfirst : ([r].find? fun r => r.callId == key) = if r.callId = key then some r else none := by
      simp [List.find?_singleton]
    show ((s.put r.callId r).putAll rs).get? key = _
    rw [ih, get?_put, List.reverse_cons, List.find?_append, Option.or_assoc, hfirst]
    split <;> rfl

/-- What is kept under a key that none of the new responses has stays. -/
theorem get?_putAll_of_forall_ne (s : ToolStore) {rs : List StoredResponse} {key : String}
    (h : ∀ r ∈ rs, r.callId ≠ key) : (s.putAll rs).get? key = s.get? key := by
  have hnone : (rs.reverse.find? fun r => r.callId == key) = none := by
    rw [List.find?_eq_none]
    exact fun r hr => by simpa using h r (List.mem_reverse.1 hr)
  rw [get?_putAll, hnone, Option.none_or]

/-- Responses with keys of their own are all found, whatever was kept before. -/
theorem get?_putAll_of_mem (s : ToolStore) {rs : List StoredResponse} (hkeys : (rs.map StoredResponse.callId).Nodup)
    {r : StoredResponse} (hr : r ∈ rs) : (s.putAll rs).get? r.callId = some r := by
  have hsome : (rs.reverse.find? fun r' => r'.callId == r.callId).isSome :=
    List.find?_isSome.2 ⟨r, List.mem_reverse.2 hr, beq_self_eq_true _⟩
  obtain ⟨r', hfind⟩ := Option.isSome_iff_exists.1 hsome
  have hmem := List.mem_reverse.1 (List.mem_of_find?_eq_some hfind)
  have hid := List.find?_some hfind
  obtain rfl := List.inj_on_of_nodup_map hkeys hmem hr (beq_iff_eq.1 hid)
  rw [get?_putAll, hfind, Option.some_or]

/-- Under keys of their own, just the entries are found. -/
theorem get?_eq_some_iff {s : ToolStore} (hkeys : (s.entries.map Prod.fst).Nodup) {key : String} {r : StoredResponse} :
    s.get? key = some r ↔ (key, r) ∈ s.entries := by
  have hfound : ∀ e, s.entries.find? (fun e => e.1 == key) = some e → e ∈ s.entries ∧ e.1 = key := by
    intro e he
    have hkey := List.find?_some he
    exact ⟨List.mem_of_find?_eq_some he, beq_iff_eq.1 hkey⟩
  rw [get?, Option.map_eq_some_iff]
  constructor
  · rintro ⟨⟨key', r'⟩, hfind, rfl⟩
    obtain ⟨hmem, rfl⟩ := hfound _ hfind
    exact hmem
  · intro hmem
    have hsome : (s.entries.find? fun e => e.1 == key).isSome :=
      List.find?_isSome.2 ⟨_, hmem, beq_self_eq_true key⟩
    obtain ⟨e, he⟩ := Option.isSome_iff_exists.1 hsome
    obtain ⟨hother, hkey⟩ := hfound e he
    exact ⟨e, he, congrArg Prod.snd (List.inj_on_of_nodup_map hkeys hother hmem hkey)⟩

end ToolStore

/-! ## Calls and their frames -/

/-- A call of a response: its number among the calls, the number of frames that are sent before its own,
and these. -/
structure CallSite where
  number : Nat
  before : Nat
  frames : List String
  call : ToolUnit
  deriving DecidableEq, Repr

namespace CallSite

/-- What is stored of a call. -/
def stored (x : Context) (provider : Provider) (c : CallSite) : StoredResponse :=
  .ofCall c.call.callId c.call.toolName c.call.arguments provider (x.callTime c.number)

/-- The frames of a call that are among the first of its response. -/
def arrived (n : Nat) (c : CallSite) : List String := c.frames.take (n - c.before)

end CallSite

section Walk

variable {σ : Type} [Framer σ]

/-- The calls of units, where some calls were made and some frames sent already. -/
def callSites : σ → Nat → Nat → List OutputUnit → List CallSite
  | _, _, _, [] => []
  | s, calls, sent, .text u :: us => callSites (Framer.text s u).1 calls (sent + (Framer.text s u).2.length) us
  | s, calls, sent, .tool u :: us =>
    ⟨calls, sent, (Framer.toolCall s u).2, u⟩ ::
      callSites (Framer.toolCall s u).1 (calls + 1) (sent + (Framer.toolCall s u).2.length) us

variable (x : Context) (provider : Provider)

/-- What actions store, and when, is told by the calls of their units. -/
theorem storings_unitActions (s : σ) (calls sent : Nat) (us : List (Nat × OutputUnit)) :
    storings sent (unitActions x provider s calls us).1 =
      (callSites s calls sent (us.map Prod.snd)).map fun c => (c.before, c.stored x provider) := by
  induction us generalizing s calls sent with
  | nil => rfl
  | cons pu us ih =>
    obtain ⟨pause, u⟩ := pu
    rw [unitActions, storings_append, List.filterMap_append, frames_leadActions, frames_map_send, storings_append,
      storings_sends, List.append_nil, List.nil_append, ih]
    cases u with
    | text u =>
      have hlead : storings sent (leadActions x provider pause calls (.text u)) = [] := by
        rw [leadActions]
        split <;> rfl
      rw [hlead]
      rfl
    | tool u => rfl

theorem map_stored_callSites (s : σ) (calls sent : Nat) (us : List OutputUnit) :
    (callSites s calls sent us).map (CallSite.stored x provider) = storedOf x provider calls us := by
  fun_induction callSites s calls sent us with
  | case1 => rfl
  | case2 s calls sent u us ih => exact ih
  | case3 s calls sent u us ih => exact congrArg (_ :: ·) ih

variable {s : σ} {calls sent : Nat} {us : List OutputUnit} {c : CallSite}

theorem le_before (h : c ∈ callSites s calls sent us) : sent ≤ c.before := by
  fun_induction callSites s calls sent us with
  | case1 => cases h
  | case2 s calls sent u us ih => exact Nat.le_of_add_right_le (ih h)
  | case3 s calls sent u us ih =>
    rcases List.mem_cons.1 h with rfl | h
    · exact Nat.le_refl _
    · exact Nat.le_of_add_right_le (ih h)

/-- The frames of a call come before those of the next. -/
theorem pairwise_callSites (s : σ) (calls sent : Nat) (us : List OutputUnit) :
    (callSites s calls sent us).Pairwise fun a b => a.before + a.frames.length ≤ b.before := by
  fun_induction callSites s calls sent us with
  | case1 => exact .nil
  | case2 s calls sent u us ih => exact ih
  | case3 s calls sent u us ih => exact .cons (fun _ hc => le_before hc) ih

/-- The frames of a call stand among all frames where the call says. -/
theorem exists_frames_of_mem (h : c ∈ callSites s calls sent us) :
    ∃ earlier later, (Framer.answerAll s us).2 = earlier ++ (c.frames ++ later) ∧
      sent + earlier.length = c.before := by
  fun_induction callSites s calls sent us with
  | case1 => cases h
  | case2 s calls sent u us ih =>
    obtain ⟨earlier, later, hframes, hbefore⟩ := ih h
    refine ⟨(Framer.text s u).2 ++ earlier, later, ?_, by rw [List.length_append]; omega⟩
    rw [Framer.answerAll, List.append_assoc, ← hframes]
    rfl
  | case3 s calls sent u us ih =>
    rcases List.mem_cons.1 h with rfl | h
    · exact ⟨[], _, rfl, rfl⟩
    · obtain ⟨earlier, later, hframes, hbefore⟩ := ih h
      refine ⟨(Framer.toolCall s u).2 ++ earlier, later, ?_, by rw [List.length_append]; omega⟩
      rw [Framer.answerAll, List.append_assoc, ← hframes]
      rfl

theorem exists_framesOf_of_mem (h : c ∈ callSites s calls 0 us) (n : Nat) :
    ∃ earlier later, Framer.framesOf s us = earlier ++ (c.frames ++ later) ∧ earlier.length = c.before ∧
      (Framer.framesOf s us).take n =
        earlier.take n ++ (c.arrived n ++ later.take (n - c.before - c.frames.length)) := by
  obtain ⟨earlier, later, hframes, hbefore⟩ := exists_frames_of_mem h
  rw [Nat.zero_add] at hbefore
  have hall : Framer.framesOf s us =
      earlier ++ (c.frames ++ (later ++ (Framer.close (Framer.answerAll s us).1).2)) := by
    rw [Framer.framesOf, hframes, List.append_assoc, List.append_assoc]
  refine ⟨earlier, _, hall, hbefore, ?_⟩
  rw [hall, List.take_append, List.take_append, hbefore]
  rfl

/-- The frames of a call are those that the framer makes of it. -/
theorem exists_toolCall_of_mem (h : c ∈ callSites s calls sent us) :
    ∃ s' : σ, c.frames = (Framer.toolCall s' c.call).2 := by
  fun_induction callSites s calls sent us with
  | case1 => cases h
  | case2 s calls sent u us ih => exact ih h
  | case3 s calls sent u us ih =>
    rcases List.mem_cons.1 h with rfl | h
    · exact ⟨s, rfl⟩
    · exact ih h

theorem frames_ne_nil_of_mem (hσ : Framer.Speaks σ) (h : c ∈ callSites s calls sent us) : c.frames ≠ [] := by
  obtain ⟨s', hframes⟩ := exists_toolCall_of_mem h
  rw [hframes]
  exact hσ s' (.tool c.call)

/-- What is read of the first frames is read of calls, if nothing is read of the frames of texts. -/
theorem flatMap_take_answerAll {β : Type} {read : String → List β}
    (htext : ∀ (s : σ) (u : TextUnit), (Framer.text s u).2.flatMap read = []) (n : Nat) (s : σ) (calls sent : Nat)
    (us : List OutputUnit) :
    ((Framer.answerAll s us).2.take (n - sent)).flatMap read =
      (callSites s calls sent us).flatMap fun c => (c.arrived n).flatMap read := by
  fun_induction callSites s calls sent us with
  | case1 => rw [Framer.answerAll, List.take_nil]; rfl
  | case2 s calls sent u us ih =>
    have hsilent : ((Framer.text s u).2.take (n - sent)).flatMap read = [] := by
      rw [List.flatMap_eq_nil_iff]
      exact fun frame hframe => List.flatMap_eq_nil_iff.1 (htext s u) frame (List.mem_of_mem_take hframe)
    rw [Framer.answerAll, List.take_append, List.flatMap_append, Nat.sub_sub]
    show ((Framer.text s u).2.take (n - sent)).flatMap read ++ _ = _
    rw [hsilent]
    exact ih
  | case3 s calls sent u us ih =>
    rw [Framer.answerAll, List.take_append, List.flatMap_append, Nat.sub_sub, List.flatMap_cons, ← ih]
    rfl

theorem flatMap_take_framesOf {β : Type} {read : String → List β}
    (htext : ∀ (s : σ) (u : TextUnit), (Framer.text s u).2.flatMap read = [])
    (hclose : ∀ s : σ, (Framer.close s).2.flatMap read = []) (n : Nat) (s : σ) (us : List OutputUnit) :
    ((Framer.framesOf s us).take n).flatMap read = (callSites s 0 0 us).flatMap fun c => (c.arrived n).flatMap read := by
  have hsilent : ((Framer.close (Framer.answerAll s us).1).2.take
      (n - (Framer.answerAll s us).2.length)).flatMap read = [] := by
    rw [List.flatMap_eq_nil_iff]
    exact fun frame hframe => List.flatMap_eq_nil_iff.1 (hclose _) frame (List.mem_of_mem_take hframe)
  rw [Framer.framesOf, List.take_append, List.flatMap_append, hsilent, List.append_nil]
  exact flatMap_take_answerAll htext n s 0 0 us

end Walk

/-! ## Calls of commands -/

/-- The call that a command makes. -/
def call? (c : Command) : Option (String × String) :=
  match c.directive with
  | .say _ => none
  | .toolCall toolName arguments => some (toolName, arguments)

/-- The call that matter is. -/
def Matter.call? : Matter → Option (String × String)
  | .text _ => none
  | .tool toolName arguments _ => some (toolName, arguments)

theorem storedOf_place (x : Context) (provider : Provider) (first : Bool) (calls : Nat) (ms : List Matter) :
    storedOf x provider calls (place x.callId first calls ms) =
      ((ms.filterMap Matter.call?).zipIdx calls).map fun c =>
        .ofCall (x.callId c.2) c.1.1 c.1.2 provider (x.callTime c.2) := by
  fun_induction place x.callId first calls ms with
  | case1 => rfl
  | case2 first calls chunk rest ih => exact ih
  | case3 first calls toolName arguments size rest ih => exact congrArg (_ :: ·) ih

theorem filterMap_call?_matter (cs : List Command) : (cs.flatMap matter).filterMap Matter.call? = cs.filterMap call? := by
  induction cs with
  | nil => rfl
  | cons c cs ih =>
    rw [List.flatMap_cons, List.filterMap_append, ih]
    obtain ⟨content | ⟨toolName, arguments⟩, settings⟩ := c
    · have htexts : (matter ⟨.say content, settings⟩).filterMap Matter.call? = [] := by
        rw [matter, List.filterMap_map, List.filterMap_eq_nil_iff]
        exact fun _ _ => rfl
      rw [htexts]
      rfl
    · rfl

theorem storedOf_units (x : Context) (provider : Provider) (cs : List Command) :
    storedOf x provider 0 (units x cs) =
      (cs.filterMap call?).zipIdx.map fun c => .ofCall (x.callId c.2) c.1.1 c.1.2 provider (x.callTime c.2) := by
  rw [units, storedOf_place, filterMap_call?_matter]

theorem callId_ofCalls (callId : Nat → String) (provider : Provider) (createdAt : Nat → String)
    (calls : List (String × String)) :
    (calls.zipIdx.map fun c => StoredResponse.ofCall (callId c.2) c.1.1 c.1.2 provider (createdAt c.2)).map
      StoredResponse.callId = (List.range calls.length).map callId := by
  rw [List.map_map, List.range_eq_range', ← List.zipIdx_map_snd 0 calls, List.map_map]
  rfl

theorem filterMap_call?_spoken (cs : List Command) : (spoken cs).filterMap call? = cs.filterMap call? := by
  unfold spoken
  split
  case isTrue h => rw [h]; rfl
  case isFalse => rfl

/-! ## Responses -/

/-- The calls of a response. -/
def Provider.callSites (p : Provider) (x : Context) (replyId : String) (cs : List Command) : List CallSite :=
  let us := units x (spoken cs)
  match p with
  | .openAi => Stream.callSites (OpenAi.State.initial replyId x.created x.model) 0 0 us
  | .anthropic => Stream.callSites (Anthropic.State.initial replyId x.model) 0 0 us
  | .gemini => Stream.callSites Gemini.State.ready 0 0 us

section Walk

variable {σ : Type} [Framer σ] (x : Context) (s : σ) (cs : List Command)

/-- The calls of a response are stored as those of its commands, in order, under their identifiers. -/
theorem stored_callSites (provider : Provider) :
    (callSites s 0 0 (units x (spoken cs))).map (CallSite.stored x provider) =
      (cs.filterMap call?).zipIdx.map fun c => .ofCall (x.callId c.2) c.1.1 c.1.2 provider (x.callTime c.2) := by
  rw [map_stored_callSites, storedOf_units, filterMap_call?_spoken]

theorem callId_callSites (provider : Provider) :
    (callSites s 0 0 (units x (spoken cs))).map (fun c => (c.stored x provider).callId) =
      (List.range (cs.filterMap call?).length).map x.callId := by
  have h := congrArg (List.map StoredResponse.callId) (stored_callSites x s cs provider)
  rw [List.map_map, callId_ofCalls] at h
  exact h

theorem storings_schedule : storings 0 (schedule x s cs) =
    (callSites s 0 0 (units x (spoken cs))).map fun c => (c.before, c.stored x (Framer.provider s)) := by
  rw [← schedule_spoken, schedule_eq x s (spoken_ne_nil cs), storings_append, storings_unitActions, zip_pauses_units,
    closeActions, storings_sends, List.append_nil]

/-- A collector that closes after n frames leaves the calls stored before whose frames there are no more
than n. -/
theorem stored_cutAt (hσ : Framer.Speaks σ) (n : Nat) :
    (perform (Collector.empty (some n)) (schedule x s cs)).stored =
      ((callSites s 0 0 (units x (spoken cs))).filter fun c => c.before ≤ n).map
        (CallSite.stored x (Framer.provider s)) := by
  rw [(perform_cutAt n (pausesLead_schedule hσ x s cs)).stored, storings_schedule, List.filter_map, List.map_map]
  rfl

end Walk

theorem filterMap_stored?_schedule {σ : Type} [Framer σ] (x : Context) (s : σ) (cs : List Command) :
    (schedule x s cs).filterMap Action.stored? =
      (cs.filterMap call?).zipIdx.map fun c =>
        .ofCall (x.callId c.2) c.1.1 c.1.2 (Framer.provider s) (x.callTime c.2) := by
  rw [← map_snd_storings 0, storings_schedule, List.map_map]
  exact stored_callSites x s cs (Framer.provider s)

/-- A response stores the calls of its commands, in order, under the identifiers they are given. -/
theorem Provider.stored_schedule (p : Provider) (x : Context) (replyId : String) (cs : List Command) :
    (p.schedule x replyId cs).filterMap Action.stored? =
      (cs.filterMap call?).zipIdx.map fun c => .ofCall (x.callId c.2) c.1.1 c.1.2 p (x.callTime c.2) := by
  cases p with
  | openAi => exact filterMap_stored?_schedule x (OpenAi.State.initial replyId x.created x.model) cs
  | anthropic => exact filterMap_stored?_schedule x (Anthropic.State.initial replyId x.model) cs
  | gemini => exact filterMap_stored?_schedule x Gemini.State.ready cs

/-- The calls of a response have the first identifiers that are given to calls. -/
theorem Provider.callId_stored_schedule (p : Provider) (x : Context) (replyId : String) (cs : List Command) :
    ((p.schedule x replyId cs).filterMap Action.stored?).map StoredResponse.callId =
      (List.range (cs.filterMap call?).length).map x.callId := by
  rw [Provider.stored_schedule, callId_ofCalls]

end ScriptedModel.Stream
