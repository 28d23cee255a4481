/-
Responses that share a store. Their encoders take turns in any order; at each turn one of them does its next
action, and what it stores goes into the store that all of them have.

Main statement: if no two calls have the same identifier, each encoder does at each of its turns what it does
alone, the store has just what the encoders would have stored alone, an identifier that a client has got is
found, and whatever the turns were, all comes to the same end.
-/
import Mathlib.Data.Fintype.BigOperators
import ScriptedModel.Proofs.Client.Mention
import ScriptedModel.Proofs.Stream.Encoder
import ScriptedModel.Proofs.Stream.Relay

namespace ScriptedModel.Client

open Script (Command)
open ScriptedModel.Stream

/-! ## Jobs -/

/-- A response that is to be streamed, and the number of frames after which its client is gone, if it goes. -/
structure Job where
  provider : Provider
  context : Context
  replyId : String
  commands : List Command
  limit? : Option Nat

namespace Job

/-- What is to be done to stream the response of a job. -/
def actions (j : Job) : List Action := j.provider.schedule j.context j.replyId j.commands

/-- What a job comes to in one go. -/
def run (j : Job) : Run Collector := perform (Collector.empty j.limit?) j.actions

/-- The identifiers of the calls of a job. -/
def callIds (j : Job) : List String := (List.range (j.commands.filterMap Stream.call?).length).map j.context.callId

/-- Jobs no two of whose calls have the same identifier. -/
structure AreDistinct {ι : Type} (jobs : ι → Job) : Prop where
  nodup : ∀ i, (jobs i).callIds.Nodup
  disjoint : ∀ i j, i ≠ j → (jobs i).callIds.Disjoint (jobs j).callIds

end Job

/-! ## Turns -/

/-- The encoders of jobs, and the store that they share. -/
structure Shared (ι : Type) where
  encoders : ι → Encoder Collector
  store : ToolStore

namespace Shared

section Turns

variable {ι : Type} [DecidableEq ι]

/-- Before any turn. -/
def start (jobs : ι → Job) : Shared ι := ⟨fun i => .start (.empty (jobs i).limit?) (jobs i).actions, .empty⟩

/-- The turn of an encoder, unless it has ended. -/
def turn? (s : Shared ι) (i : ι) : Option (Shared ι) :=
  (s.encoders i).next?.map fun (e, stored?) => ⟨Function.update s.encoders i e, s.store.putAll stored?.toList⟩

/-- Turns one after another. -/
def follow? (s : Shared ι) (turns : List ι) : Option (Shared ι) := turns.foldlM turn? s

/-- A job that shares its store with none, after a number of turns. -/
def alone? (j : Job) (n : Nat) : Option (Shared Unit) := (start fun _ => j).follow? (List.replicate n ())

/-- Whether no encoder has a turn left. -/
def IsOver (s : Shared ι) : Prop := ∀ i, s.turn? i = none

variable {s s' : Shared ι} {i : ι} {turns : List ι} {jobs : ι → Job}

theorem follow?_cons (s : Shared ι) (i : ι) (turns : List ι) :
    s.follow? (i :: turns) = (s.turn? i).bind (follow? · turns) :=
  List.foldlM_cons

theorem exists_of_turn? (h : s.turn? i = some s') : ∃ e stored?, (s.encoders i).next? = some (e, stored?) ∧
    s' = ⟨Function.update s.encoders i e, s.store.putAll stored?.toList⟩ := by
  obtain ⟨⟨e, stored?⟩, hnext, rfl⟩ := Option.map_eq_some_iff.1 h
  exact ⟨e, stored?, hnext, rfl⟩

/-- An encoder takes as many steps as it has turns. -/
theorem after?_of_follow? (h : s.follow? turns = some s') (i : ι) :
    (s.encoders i).after? (turns.count i) = some (s'.encoders i) := by
  induction turns generalizing s with
  | nil =>
    cases h
    rfl
  | cons j turns ih =>
    rw [follow?_cons] at h
    obtain ⟨s₁, hturn, hrest⟩ := Option.bind_eq_some_iff.1 h
    have hlater := ih hrest
    obtain ⟨e, stored?, hnext, rfl⟩ := exists_of_turn? hturn
    by_cases hij : j = i
    · subst hij
      rw [List.count_cons_self, Encoder.after?, hnext]
      simpa only [Option.bind_some, Function.update_self] using hlater
    · rw [List.count_cons_of_ne hij]
      simpa only [Function.update_of_ne (Ne.symm hij)] using hlater

/-- Steps of an encoder can be taken alone. -/
theorem follow?_of_after? {s : Shared Unit} {e : Encoder Collector} {n : Nat}
    (h : (s.encoders ()).after? n = some e) :
    ∃ s', s.follow? (List.replicate n ()) = some s' ∧ s'.encoders () = e := by
  induction n generalizing s with
  | zero =>
    cases h
    exact ⟨s, rfl, rfl⟩
  | succ n ih =>
    rw [Encoder.after?] at h
    obtain ⟨⟨e₁, stored?⟩, hnext, hrest⟩ := Option.bind_eq_some_iff.1 h
    have hturn : s.turn? () = some ⟨Function.update s.encoders () e₁, s.store.putAll stored?.toList⟩ := by
      rw [turn?, hnext]
      rfl
    obtain ⟨s', hfollow, hencoder⟩ :=
      ih (s := ⟨Function.update s.encoders () e₁, s.store.putAll stored?.toList⟩) hrest
    refine ⟨s', ?_, hencoder⟩
    rw [List.replicate_succ, follow?_cons, hturn]
    exact hfollow

theorem next?_of_isOver (hover : s.IsOver) (i : ι) : (s.encoders i).next? = none :=
  Option.map_eq_none_iff.1 (hover i)

theorem exists_turns (h : Relation.ReflTransGen (fun s s' : Shared ι => ∃ i, s.turn? i = some s') s s') :
    ∃ more, s.follow? more = some s' := by
  induction h using Relation.ReflTransGen.head_induction_on with
  | refl => exact ⟨[], rfl⟩
  | head hturn _ ih =>
    obtain ⟨i, hi⟩ := hturn
    obtain ⟨more, hmore⟩ := ih
    refine ⟨i :: more, ?_⟩
    rw [follow?_cons, hi]
    exact hmore

end Turns

/-! ## What is shared -/

/-- The entries of responses in a store, each under its identifier. -/
def entriesOf (rs : List StoredResponse) : Multiset (String × StoredResponse) :=
  (rs.map fun r => (r.callId, r) : List (String × StoredResponse))

theorem mem_entriesOf {rs : List StoredResponse} {x : String × StoredResponse} :
    x ∈ entriesOf rs ↔ x.2 ∈ rs ∧ x.2.callId = x.1 := by
  rw [entriesOf, Multiset.mem_coe, List.mem_map]
  constructor
  · rintro ⟨r, hr, rfl⟩
    exact ⟨hr, rfl⟩
  · rintro ⟨hr, hkey⟩
    exact ⟨x.2, hr, Prod.ext hkey rfl⟩

theorem entriesOf_append (rs rs' : List StoredResponse) : entriesOf (rs ++ rs') = entriesOf rs + entriesOf rs' := by
  rw [entriesOf, List.map_append, ← Multiset.coe_add]
  rfl

section Store

variable {ι : Type} [Fintype ι] {s : Shared ι} {i : ι} {jobs : ι → Job}

/-- Encoders of jobs that have come some way, and a store that has what they stored and nothing else. -/
structure Holds (jobs : ι → Job) (s : Shared ι) : Prop where
  does : ∀ i, ∃ done, (s.encoders i).Does (Collector.empty (jobs i).limit?) (jobs i).actions done
  runs : ∀ i, (s.encoders i).run = (jobs i).run
  keys : (s.store.entries.map Prod.fst).Nodup
  entries : (s.store.entries : Multiset (String × StoredResponse)) = ∑ i, entriesOf (s.encoders i).stored

theorem holds_start (jobs : ι → Job) : Holds jobs (start jobs) :=
  { does := fun _ => ⟨[], Encoder.does_start _ _⟩
    runs := fun _ => Encoder.run_start _ _
    keys := List.nodup_nil
    entries := (Finset.sum_eq_zero fun _ _ => rfl).symm }

theorem callIds_of_does {j : Job} {k : Collector} {done : List Action} {e : Encoder Collector}
    (h : e.Does k j.actions done) :
    j.callIds = e.stored.map StoredResponse.callId ++
      (e.rest.filterMap Action.stored?).map StoredResponse.callId := by
  have hall := j.provider.callId_stored_schedule j.context j.replyId j.commands
  show _ = _
  rw [Job.callIds, ← hall, h.stored, ← List.map_append, ← List.filterMap_append, h.split]
  rfl

theorem Holds.mem_entries (h : Holds jobs s) {x : String × StoredResponse} :
    x ∈ s.store.entries ↔ ∃ i, x.2 ∈ (s.encoders i).stored ∧ x.2.callId = x.1 := by
  rw [← Multiset.mem_coe, h.entries, Multiset.mem_sum]
  simp only [Finset.mem_univ, true_and, mem_entriesOf]

/-- What an encoder stores next has an identifier of its own. -/
theorem Holds.fresh (h : Holds jobs s) (hjobs : Job.AreDistinct jobs) {e : Encoder Collector} {r : StoredResponse}
    (hnext : (s.encoders i).next? = some (e, some r)) : r.callId ∉ s.store.entries.map Prod.fst := by
  intro hmem
  obtain ⟨x, hx, hkey⟩ := List.mem_map.1 hmem
  obtain ⟨j, hr', hcallId⟩ := h.mem_entries.1 hx
  have hother : r.callId ∈ (s.encoders j).stored.map StoredResponse.callId :=
    hcallId.trans hkey ▸ List.mem_map_of_mem hr'
  obtain ⟨done, hdoes⟩ := h.does i
  obtain ⟨done', hdoes'⟩ := h.does j
  have hids := callIds_of_does hdoes
  obtain ⟨-, hadvances⟩ := Encoder.advances_of_next? hnext
  cases hadvances with
  | @stored response rest hrest =>
  rw [hrest] at hids
  have hnew : r.callId ∈ ((Action.store r :: rest).filterMap Action.stored?).map StoredResponse.callId :=
    List.mem_cons_self
  by_cases hij : i = j
  · subst hij
    have hnodup := hjobs.nodup i
    rw [hids, List.nodup_append] at hnodup
    exact hnodup.2.2 _ hother _ hnew rfl
  · have hleft : r.callId ∈ (jobs i).callIds := by
      rw [hids]
      exact List.mem_append_right _ hnew
    have hright : r.callId ∈ (jobs j).callIds := by
      rw [callIds_of_does hdoes']
      exact List.mem_append_left _ hother
    exact hjobs.disjoint i j hij hleft hright

/-- What a client has got of a call is in the store. -/
theorem Holds.found (h : Holds jobs s) {frame : String} (hframe : frame ∈ (s.encoders i).sink.frames.toList)
    {callId toolName added : String} (hm : .opening callId toolName added ∈ mentions (jobs i).provider frame) :
    ∃ r, s.store.get? callId = some r ∧ r.toolName = toolName := by
  obtain ⟨done, hdoes⟩ := h.does i
  have hframes := Collector.frames_of_takeAll? hdoes.frames
  rw [hframes] at hframe
  obtain ⟨r, hr, hcallId, htool⟩ := exists_stored_of_mention (jobs i).provider (jobs i).context (jobs i).replyId
    (jobs i).commands hdoes.split hframe hm
  rw [← hdoes.stored] at hr
  exact ⟨r, (ToolStore.get?_eq_some_iff h.keys).2 (h.mem_entries.2 ⟨i, hr, hcallId⟩), htool⟩

end Store

section Runs

variable {ι : Type} [DecidableEq ι] [Fintype ι] {s s' : Shared ι} {i : ι} {turns : List ι} {jobs : ι → Job}

/-- What encoders add up to where one of them has come further. -/
theorem sum_update {M : Type} [AddCommMonoid M] (f : Encoder Collector → M) (encoders : ι → Encoder Collector) (i : ι)
    (e : Encoder Collector) :
    ∑ j, f (Function.update encoders i e j) = f e + ∑ j ∈ Finset.univ.erase i, f (encoders j) := by
  rw [← Finset.add_sum_erase _ _ (Finset.mem_univ i), Function.update_self]
  refine congrArg (f e + ·) (Finset.sum_congr rfl fun j hj => ?_)
  rw [Function.update_of_ne (Finset.ne_of_mem_erase hj)]

theorem Holds.turn (h : Holds jobs s) (hjobs : Job.AreDistinct jobs) (hturn : s.turn? i = some s') : Holds jobs s' := by
  obtain ⟨e, stored?, hnext, rfl⟩ := exists_of_turn? hturn
  have hkeys : (s.store.entries.map Prod.fst ++ stored?.toList.map StoredResponse.callId).Nodup := by
    cases stored? with
    | none => simpa using h.keys
    | some r =>
      refine List.Nodup.append h.keys (List.nodup_singleton _) ?_
      rw [Option.toList_some, List.map_singleton, List.disjoint_singleton]
      exact h.fresh hjobs hnext
  have hentries := ToolStore.entries_putAll s.store hkeys
  have hstored := Encoder.stored_of_next? hnext
  refine { does := ?_, runs := ?_, keys := ?_, entries := ?_ }
  · refine (Function.forall_update_iff s.encoders fun j e =>
      ∃ done, e.Does (Collector.empty (jobs j).limit?) (jobs j).actions done).2 ⟨?_, fun j _ => h.does j⟩
    obtain ⟨done, hdoes⟩ := h.does i
    exact hdoes.next hnext
  · exact (Function.forall_update_iff s.encoders fun j e => e.run = (jobs j).run).2
      ⟨(Encoder.run_of_next? hnext).trans (h.runs i), fun j _ => h.runs j⟩
  · show ((s.store.putAll stored?.toList).entries.map Prod.fst).Nodup
    rw [hentries, List.map_append, List.map_map]
    exact hkeys
  · show ((s.store.putAll stored?.toList).entries : Multiset (String × StoredResponse)) =
      ∑ j, entriesOf (Function.update s.encoders i e j).stored
    rw [sum_update (fun e => entriesOf e.stored), hstored, entriesOf_append, hentries, ← Multiset.coe_add, h.entries,
      ← Finset.add_sum_erase _ _ (Finset.mem_univ i), add_right_comm]
    rfl

theorem Holds.follow (h : Holds jobs s) (hjobs : Job.AreDistinct jobs) (hfollow : s.follow? turns = some s') :
    Holds jobs s' := by
  induction turns generalizing s with
  | nil =>
    cases hfollow
    exact h
  | cons i turns ih =>
    rw [follow?_cons] at hfollow
    obtain ⟨s₁, hturn, hrest⟩ := Option.bind_eq_some_iff.1 hfollow
    exact ih (h.turn hjobs hturn) hrest

theorem holds_of_follow (hjobs : Job.AreDistinct jobs) (hfollow : (start jobs).follow? turns = some s) : Holds jobs s :=
  (holds_start jobs).follow hjobs hfollow

/-! ## Each alone -/

/-- Each encoder has come as far as it comes alone by as many turns, and the store has what all of them
store alone, nothing more and nothing twice. -/
structure Unites (jobs : ι → Job) (turns : List ι) (s : Shared ι) (alone : ι → Shared Unit) : Prop where
  follows : ∀ i, alone? (jobs i) (turns.count i) = some (alone i)
  encoders : ∀ i, s.encoders i = (alone i).encoders ()
  entries : (s.store.entries : Multiset (String × StoredResponse)) =
    ∑ i, ((alone i).store.entries : Multiset (String × StoredResponse))
  keys : (s.store.entries.map Prod.fst).Nodup
  kept : ∀ i callId r, (alone i).store.get? callId = some r → s.store.get? callId = some r

theorem exists_unites (hjobs : Job.AreDistinct jobs) (hfollow : (start jobs).follow? turns = some s) :
    ∃ alone, Unites jobs turns s alone := by
  have hholds := holds_of_follow hjobs hfollow
  have halone : ∀ i, ∃ a, alone? (jobs i) (turns.count i) = some a ∧ a.encoders () = s.encoders i := fun i =>
    follow?_of_after? (s := start fun _ => jobs i) (after?_of_follow? hfollow i)
  choose alone hfollows hencoders using halone
  have hone : ∀ i, Holds (fun _ => jobs i) (alone i) := fun i =>
    holds_of_follow ⟨fun _ => hjobs.nodup i, fun _ _ hne => absurd rfl hne⟩ (hfollows i)
  have hentries : ∀ i, ((alone i).store.entries : Multiset (String × StoredResponse)) =
      entriesOf (s.encoders i).stored := by
    intro i
    rw [(hone i).entries, Fintype.sum_unique, ← hencoders i]
  refine ⟨alone,
    { follows := hfollows
      encoders := fun i => (hencoders i).symm
      entries := hholds.entries.trans (Finset.sum_congr rfl fun i _ => (hentries i).symm)
      keys := hholds.keys
      kept := ?_ }⟩
  intro i callId r hr
  rw [ToolStore.get?_eq_some_iff (hone i).keys, ← Multiset.mem_coe, hentries i, mem_entriesOf] at hr
  exact (ToolStore.get?_eq_some_iff hholds.keys).2 (hholds.mem_entries.2 ⟨i, hr⟩)

/-! ## The end -/

/-- Encoders that have all ended have done what their jobs come to in one go. -/
theorem Holds.results (h : Holds jobs s) (hover : s.IsOver) (i : ι) : (s.encoders i).result? = some (jobs i).run := by
  rw [Encoder.result?_of_next?_none (next?_of_isOver hover i), h.runs i]

theorem Holds.stored (h : Holds jobs s) (hover : s.IsOver) :
    (s.store.entries : Multiset (String × StoredResponse)) = ∑ i, entriesOf (jobs i).run.stored := by
  refine h.entries.trans (Finset.sum_congr rfl fun i _ => ?_)
  obtain ⟨o, -, hrun⟩ := Option.map_eq_some_iff.1 (h.results hover i)
  rw [← hrun]

theorem work_lt_of_turn? (h : s.turn? i = some s') : ∑ j, (s'.encoders j).work < ∑ j, (s.encoders j).work := by
  obtain ⟨e, stored?, hnext, rfl⟩ := exists_of_turn? h
  show ∑ j, (Function.update s.encoders i e j).work < _
  rw [sum_update Encoder.work, ← Finset.add_sum_erase _ _ (Finset.mem_univ i)]
  exact Nat.add_lt_add_right (Encoder.work_lt_of_next? hnext) _

/-- Encoders can go on until all have ended. -/
theorem exists_isOver (s : Shared ι) : ∃ more s', s.follow? more = some s' ∧ s'.IsOver := by
  obtain ⟨s', hturns, hlast⟩ := @exists_last (Shared ι) (fun s s' => ∃ i, s.turn? i = some s') (fun _ => True)
    (fun s => ∑ j, (s.encoders j).work) (fun _ _ _ ⟨_, hturn⟩ => ⟨trivial, work_lt_of_turn? hturn⟩) s trivial
  obtain ⟨more, hmore⟩ := exists_turns hturns
  refine ⟨more, s', hmore, fun i => ?_⟩
  cases hturn : s'.turn? i with
  | none => rfl
  | some s'' => exact absurd ⟨i, hturn⟩ (hlast s'')

/-! ## Jobs that share a store -/

/-- What becomes of jobs that share a store, whatever turns they take. -/
structure Coexist (jobs : ι → Job) : Prop where
  unites : ∀ turns s, (start jobs).follow? turns = some s → ∃ alone, Unites jobs turns s alone
  found : ∀ turns s, (start jobs).follow? turns = some s → ∀ i, ∀ frame ∈ (s.encoders i).sink.frames.toList,
    ∀ callId toolName added, .opening callId toolName added ∈ mentions (jobs i).provider frame →
      ∃ r, s.store.get? callId = some r ∧ r.toolName = toolName
  ends : ∀ turns s, (start jobs).follow? turns = some s → ∃ more s', s.follow? more = some s' ∧ s'.IsOver
  /-- At the end each job has come to what it comes to in one go, and the store has what all of them store. -/
  settled : ∀ turns s, (start jobs).follow? turns = some s → s.IsOver →
    (∀ i, (s.encoders i).result? = some (jobs i).run) ∧
      (s.store.entries : Multiset (String × StoredResponse)) = ∑ i, entriesOf (jobs i).run.stored
  /-- Whatever the turns were, at the end the same is found. -/
  agree : ∀ turns turns' s s', (start jobs).follow? turns = some s → (start jobs).follow? turns' = some s' →
    s.IsOver → s'.IsOver → s.store.entries.Perm s'.store.entries ∧ ∀ callId, s.store.get? callId = s'.store.get? callId

/-- Jobs whose calls all have identifiers of their own do not disturb each other. -/
theorem coexist_of_distinct (hjobs : Job.AreDistinct jobs) : Coexist jobs := by
  have hholds : ∀ turns s, (start jobs).follow? turns = some s → Holds jobs s := fun _ _ => holds_of_follow hjobs
  exact
    { unites := fun _ _ hfollow => exists_unites hjobs hfollow
      found := fun turns s hfollow i frame hframe callId toolName added hm =>
        (hholds turns s hfollow).found hframe hm
      ends := fun _ s _ => exists_isOver s
      settled := fun turns s hfollow hover =>
        ⟨(hholds turns s hfollow).results hover, (hholds turns s hfollow).stored hover⟩
      agree := by
        intro turns turns' s s' hfollow hfollow' hover hover'
        have h := hholds turns s hfollow
        have h' := hholds turns' s' hfollow'
        have hperm : s.store.entries.Perm s'.store.entries :=
          Multiset.coe_eq_coe.1 ((h.stored hover).trans (h'.stored hover').symm)
        refine ⟨hperm, fun callId => Option.ext fun r => ?_⟩
        rw [ToolStore.get?_eq_some_iff h.keys, ToolStore.get?_eq_some_iff h'.keys, hperm.mem_iff] }

end Runs

/-- Two jobs of one call each, of which the second has lost its client: both calls are kept at the end. -/
theorem coexist_of_distinct_two :
    let x : String → Context := fun callId => ⟨"m", 0, 0, fun _ => callId, fun _ => "", fun _ => 0⟩
    let jobs : Bool → Job := fun i =>
      if i then ⟨.openAi, x "a", "id", [⟨.toolCall "f" "", .unset⟩], none⟩
      else ⟨.gemini, x "b", "id", [⟨.toolCall "g" "", .unset⟩], some 0⟩
    Job.AreDistinct jobs ∧ ∃ turns s, (start jobs).follow? turns = some s ∧ s.IsOver ∧
      (s.encoders true).result?.map Run.outcome = some .completed ∧
      (s.encoders false).result?.map Run.outcome = some .disconnected ∧ s.store.size = 2 := by
  intro x jobs
  have hids : ∀ i, (jobs i).callIds = [if i then "a" else "b"] := by decide
  have hjobs : Job.AreDistinct jobs := by
    refine ⟨by decide, fun i j hij => ?_⟩
    rw [hids i, hids j, List.singleton_disjoint]
    revert i j
    decide
  have hcoexist := coexist_of_distinct hjobs
  obtain ⟨turns, s, hfollow, hover⟩ := hcoexist.ends [] (start jobs) rfl
  obtain ⟨hresults, hstored⟩ := hcoexist.settled turns s hfollow hover
  refine ⟨hjobs, turns, s, hfollow, hover, ?_, ?_, ?_⟩
  · rw [hresults true]
    decide +kernel
  · rw [hresults false]
    decide +kernel
  · have hcard := congrArg Multiset.card hstored
    rw [Multiset.coe_card] at hcard
    exact hcard.trans (by decide +kernel)

end Shared

end ScriptedModel.Client
