/-
Keys. A server with keys looks at the key that a request presents before it looks at anything of the
request but its path, and a request that presents an accepted key it answers as if it had none.

Main statement: what presents no accepted key is refused wherever it leads but to the question how the
server does, and the refusal tells nothing of the body, of the path or of what the server keeps; with an
accepted key a server does what the same server does without keys, as if nothing else had been asked.
-/
import ScriptedModel.Proofs.Http.Posting

namespace ScriptedModel.Http

/-! ## What is presented -/

/-- The key that a request presents. -/
def Request.key? (q : Request) : Option String := presentedKey? q.headers q.target.query?

/-- A request that presents one of the keys of a configuration. -/
def Request.Unlocks (q : Request) (c : Configuration) : Prop := ∃ key ∈ c.keys, q.key? = some key

instance (q : Request) (c : Configuration) : Decidable (q.Unlocks c) :=
  inferInstanceAs (Decidable (∃ key ∈ c.keys, q.key? = some key))

/-- A request that reaches a route which asks for a key where there are keys. -/
def Request.IsGuarded (q : Request) : Prop := ∃ r, q.Reaches r ∧ r ≠ .health

/-- Why a request is refused that does not present an accepted key. -/
def Request.refusal (q : Request) : Failure :=
  .unauthorized (if q.key? = none then "Missing API key" else "Invalid API key")

section Keys

variable {c : Configuration} {q : Request}

theorem checkKey_of_unlocks (h : q.Unlocks c) : checkKey c q = .ok () := by
  obtain ⟨key, hmem, hkey⟩ := h
  have haccepts : c.accepts key = true := List.contains_iff_mem.2 hmem
  have hpresented : presentedKey? q.headers q.target.query? = some key := hkey
  rw [checkKey, hpresented]
  exact if_pos haccepts

theorem checkKey_of_not_unlocks (h : ¬ q.Unlocks c) : checkKey c q = .error q.refusal := by
  unfold checkKey Request.refusal
  cases hkey : q.key? with
  | none =>
    have hpresented : presentedKey? q.headers q.target.query? = none := hkey
    rw [hpresented]
    rfl
  | some key =>
    have hpresented : presentedKey? q.headers q.target.query? = some key := hkey
    have hrejects : ¬ c.accepts key = true := fun haccepts => h ⟨key, List.contains_iff_mem.1 haccepts, hkey⟩
    rw [hpresented]
    exact if_neg hrejects

theorem asksKey_iff (hkeys : c.keys ≠ []) (r : Route) : asksKey c r = true ↔ r ≠ .health := by
  have hguarded : c.isGuarded = true := by simpa [Configuration.isGuarded] using hkeys
  rw [asksKey, hguarded, Bool.true_and, Route.isGuarded, decide_eq_true_iff]

theorem asksKey_health (c : Configuration) : asksKey c .health = false := Bool.and_false _

/-! ## How requests are answered -/

variable {s : State} {o : Occasion} {r : Route}

theorem routed_of_refused (hkeys : c.keys ≠ []) (hr : r ≠ .health) (h : ¬ q.Unlocks c)
    (hallows : r.allows q.method = true) : routed c s o r q = (s, some (.ofFailure q.refusal)) := by
  have hguard : (if asksKey c r then checkKey c q else .ok ()) = .error q.refusal := by
    rw [if_pos ((asksKey_iff hkeys r).2 hr), checkKey_of_not_unlocks h]
  rw [routed, hguard, hallows]

/-- A request is refused by an answer that its key alone decides. -/
theorem handle_of_refused (hkeys : c.keys ≠ []) (hq : q.IsGuarded) (h : ¬ q.Unlocks c) (s : State) (o : Occasion) :
    handle c s o q = (s, some (finished c o q (.ofFailure q.refusal))) := by
  obtain ⟨r, hreaches, hr⟩ := hq
  rw [handle_of_reaches hreaches, routed_of_refused hkeys hr h hreaches.plain.2.2]
  rfl

theorem Request.IsGuarded.ne_head (h : q.IsGuarded) : q.method ≠ "HEAD" := by
  obtain ⟨r, hreaches, -⟩ := h
  exact hreaches.plain.2.1

/-- The answer of a route does not depend on the keys. -/
theorem answered_unguarded (c : Configuration) (s : State) (o : Occasion) (r : Route) (q : Request) :
    answered { c with keys := [] } s o r q = answered c s o r q := by
  cases r <;> rfl

theorem routed_of_unlocks (h : q.Unlocks c) : routed c s o r q = routed { c with keys := [] } s o r q := by
  have hguard : (if asksKey c r then checkKey c q else .ok ()) = .ok () := by
    rw [checkKey_of_unlocks h, ite_self]
  have hopen : (if asksKey { c with keys := [] } r then checkKey { c with keys := [] } q else .ok ()) = .ok () :=
    if_neg (by rw [asksKey_of_keyless rfl]; exact Bool.false_ne_true)
  rw [routed, routed, hguard, hopen, answered_unguarded]

theorem handle_of_unlocks (h : q.Unlocks c) (s : State) (o : Occasion) :
    handle c s o q = handle { c with keys := [] } s o q := by
  have hdispatched : dispatched c s o q = dispatched { c with keys := [] } s o q := by
    by_cases hoptions : q.method = "OPTIONS"
    · rw [dispatched, dispatched, if_pos hoptions, if_pos hoptions]
    · rw [dispatched, dispatched, if_neg hoptions, if_neg hoptions]
      cases Route.ofPath? q.target.path with
      | none => rfl
      | some r => exact routed_of_unlocks h
  unfold handle
  rw [hdispatched]
  rfl

/-- How the server does is told to everyone. -/
theorem handle_health (h : q.Reaches .health) (c : Configuration) (s : State) (o : Occasion) :
    handle c s o q = (s, some (finished c o q (health o))) := by
  have hrouted : routed c s o .health q = (s, some (health o)) :=
    routed_of_admitted h fun hasks => absurd ((asksKey_health c).symm.trans hasks) Bool.false_ne_true
  rw [handle_of_reaches h, hrouted]
  rfl

theorem state_routed_of_not_unlocks (hkeys : c.keys ≠ []) (h : ¬ q.Unlocks c) : (routed c s o r q).1 = s := by
  unfold routed
  by_cases hr : r = .health
  · rw [hr, asksKey_health]
    cases Route.health.allows q.method <;> rfl
  · rw [if_pos ((asksKey_iff hkeys r).2 hr), checkKey_of_not_unlocks h]
    cases r.allows q.method <;> rfl

/-- What presents no accepted key changes nothing, wherever it leads. -/
theorem state_handle_of_not_unlocks (hkeys : c.keys ≠ []) (h : ¬ q.Unlocks c) (s : State) (o : Occasion) :
    (handle c s o q).1 = s := by
  show (dispatched c s o q).1 = s
  by_cases hoptions : q.method = "OPTIONS"
  · rw [dispatched, if_pos hoptions]
  · rw [dispatched, if_neg hoptions]
    cases Route.ofPath? q.target.path with
    | none => rfl
    | some r => exact state_routed_of_not_unlocks hkeys h

/-! ## Runs of requests -/

/-- The requests that present an accepted key are answered as if no other had been asked, by a server
without keys. -/
theorem handleAll_of_keys (hkeys : c.keys ≠ []) (s : State) (asked : List (Occasion × Request)) :
    handleAll { c with keys := [] } s (asked.filter fun x => x.2.Unlocks c) =
      ((handleAll c s asked).1,
        ((asked.zip (handleAll c s asked).2).filter fun x => x.1.2.Unlocks c).map Prod.snd) := by
  induction asked generalizing s with
  | nil => rfl
  | cons x asked ih =>
    obtain ⟨o, q⟩ := x
    -- The answers to a list of requests are that to the first and those to the rest, in the state after it.
    have hall : ∀ c : Configuration, ∀ rest, handleAll c s ((o, q) :: rest) =
        ((handleAll c (handle c s o q).1 rest).1, (handle c s o q).2 :: (handleAll c (handle c s o q).1 rest).2) :=
      fun _ _ => rfl
    by_cases h : q.Unlocks c
    · have haccepts := decide_eq_true h
      simp only [List.filter_cons, haccepts, if_true, hall, List.zip_cons_cons, List.map_cons,
        ← handle_of_unlocks h, ih]
    · have hrejects := decide_eq_false h
      simp only [List.filter_cons, hrejects, hall, List.zip_cons_cons, Bool.false_eq_true, if_false, ih,
        state_handle_of_not_unlocks hkeys h]

/-! ## What keys guard -/

/-- What the keys of a configuration do: they keep out what does not present one of them, without a word
of what is asked for or kept, and let in what does. -/
structure Guards (c : Configuration) : Prop where
  refused : ∀ q, q.IsGuarded → ¬ q.Unlocks c → ∀ s o,
    Responds (Declines s 401 "authentication_error"
      (if q.key? = none then "Missing API key" else "Invalid API key")) (handle c s o q)
  /-- Two refusals tell the same, whatever is asked, kept and presented besides the key. -/
  alike : ∀ q q', q.IsGuarded → q'.IsGuarded → ¬ q.Unlocks c → q'.key? = q.key? → ∀ s s' o o',
    (handle c s' o' q').2.map (fun r => (r.status, r.body)) = (handle c s o q).2.map fun r => (r.status, r.body)
  /-- On one occasion they are the same to their last header. -/
  blind : ∀ q q', q.IsGuarded → q'.IsGuarded → ¬ q.Unlocks c → q'.headers = q.headers →
    q'.target.query? = q.target.query? → ∀ s s' o, (handle c s' o q').2 = (handle c s o q).2
  admitted : ∀ q, q.Unlocks c → ∀ s o, handle c s o q = handle { c with keys := [] } s o q
  healthy : ∀ q, q.Reaches .health → ∀ s o, Responds (fun a => a.1 = s ∧ a.2.status = 200) (handle c s o q)
  traceless : ∀ s asked, handleAll { c with keys := [] } s (asked.filter fun x => x.2.Unlocks c) =
    ((handleAll c s asked).1,
      ((asked.zip (handleAll c s asked).2).filter fun x => x.1.2.Unlocks c).map Prod.snd)

theorem sharedHeaders_congr {q q' : Request} (hq : q.IsGuarded) (hq' : q'.IsGuarded) (h : q'.headers = q.headers) :
    sharedHeaders c o q' = sharedHeaders c o q := by
  obtain ⟨r, hreaches, -⟩ := hq
  obtain ⟨r', hreaches', -⟩ := hq'
  rw [sharedHeaders, sharedHeaders, h, decide_eq_false hreaches.plain.1, decide_eq_false hreaches'.plain.1]

/-- A server with keys guards all that it is asked but how it does. -/
theorem guards_of_keys (hkeys : c.keys ≠ []) : Guards c := by
  have hkey : ∀ {q q' : Request}, q'.key? = q.key? → (¬ q.Unlocks c → ¬ q'.Unlocks c) ∧ q'.refusal = q.refusal := by
    intro q q' h
    unfold Request.Unlocks Request.refusal
    rw [h]
    exact ⟨id, rfl⟩
  exact
    { refused := by
        intro q hq h s o
        rw [handle_of_refused hkeys hq h]
        exact ⟨_, rfl, declines_ofFailure hq.ne_head c s o q.refusal⟩
      alike := by
        intro q q' hq hq' h hpresent s s' o o'
        obtain ⟨hnot, hrefusal⟩ := hkey hpresent
        rw [handle_of_refused hkeys hq h, handle_of_refused hkeys hq' (hnot h), hrefusal,
          finished_of_ne_head hq.ne_head, finished_of_ne_head hq'.ne_head]
        rfl
      blind := by
        intro q q' hq hq' h hheaders hquery s s' o
        have hpresent : q'.key? = q.key? := by rw [Request.key?, Request.key?, hheaders, hquery]
        obtain ⟨hnot, hrefusal⟩ := hkey hpresent
        rw [handle_of_refused hkeys hq h, handle_of_refused hkeys hq' (hnot h), hrefusal,
          finished_of_ne_head hq.ne_head, finished_of_ne_head hq'.ne_head, sharedHeaders_congr hq hq' hheaders]
      admitted := fun q h s o => handle_of_unlocks h s o
      healthy := by
        intro q h s o
        rw [handle_health h]
        exact ⟨_, rfl, rfl, status_finished _⟩
      traceless := handleAll_of_keys hkeys }

end Keys

/-- A server with one key, asked without a key, with another one, with its own, and how it does. -/
theorem guards_of_keys_one :
    let c : Configuration := { Configuration.default with keys := ["secret"] }
    let o : Occasion := ⟨⟨0, ""⟩, fun _ => 0, "", "", fun _ => "", fun _ => "", ""⟩
    let locked : Request := ⟨"POST", ⟨"/v1/messages", none⟩, [], []⟩
    let wrong : Request := ⟨"GET", ⟨"/v1/tool-responses/x", some "key=wrong"⟩, [], []⟩
    let right : Request := ⟨"GET", ⟨"/v1/models", none⟩, [("authorization", "Bearer secret")], []⟩
    let well : Request := ⟨"GET", ⟨"/health", none⟩, [], []⟩
    c.keys ≠ [] ∧
      (locked.IsGuarded ∧
        Responds (Declines .initial 401 "authentication_error" "Missing API key") (handle c .initial o locked)) ∧
      (wrong.IsGuarded ∧
        Responds (Declines .initial 401 "authentication_error" "Invalid API key") (handle c .initial o wrong)) ∧
      (right.IsGuarded ∧ handle c .initial o right = handle .default .initial o right ∧
        (handle c .initial o right).2.map (·.status) = some 200) ∧
      well.Reaches .health ∧ Responds (fun a => a.1 = .initial ∧ a.2.status = 200) (handle c .initial o well) := by
  intro c o locked wrong right well
  have hkeys : c.keys ≠ [] := List.cons_ne_nil _ _
  have hguards := guards_of_keys hkeys
  have hlocked : locked.IsGuarded := ⟨.messages, ⟨by decide +kernel, rfl⟩, by decide⟩
  have hwrong : wrong.IsGuarded := ⟨.toolResponse ['x'], ⟨by decide +kernel, rfl⟩, by decide⟩
  have hright : right.IsGuarded := ⟨.modelList, ⟨by decide +kernel, rfl⟩, by decide⟩
  have hwell : well.Reaches .health := ⟨by decide +kernel, rfl⟩
  have hmissing : locked.key? = none := by decide +kernel
  have hinvalid : wrong.key? ≠ none := by decide +kernel
  have hnone := hguards.refused locked hlocked (by decide +kernel) .initial o
  have hother := hguards.refused wrong hwrong (by decide +kernel) .initial o
  have hadmitted := hguards.admitted right (by decide +kernel) .initial o
  rw [if_pos hmissing] at hnone
  rw [if_neg hinvalid] at hother
  refine ⟨hkeys, ⟨hlocked, hnone⟩, ⟨hwrong, hother⟩, ⟨hright, hadmitted, ?_⟩, hwell, hguards.healthy well hwell _ o⟩
  rw [hadmitted]
  decide +kernel

end ScriptedModel.Http
