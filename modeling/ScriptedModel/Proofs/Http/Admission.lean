/-
Who is let in. A server with keys asks one question of a request: is the key that it presents configured?

Main statement: a request is let in if the first scheme that can be used carries a configured key. So any
scheme will do, as long as none that counts before it can be used; what the schemes after it carry does not
matter; and keys that are blank let nobody in.
-/
import Mathlib.Data.List.TakeWhile
import ScriptedModel.Proofs.Http.Credentials
import ScriptedModel.Proofs.Http.Keys

namespace ScriptedModel.Http

open ScriptedModel.Stream (Provider)

/-- A request passes the check of its key. -/
def Request.Passes (q : Request) (c : Configuration) : Prop := checkKey c q = .ok ()

/-- A request for a route that asks for a key where there are keys, by whatever method. -/
structure Request.MeetsGuard (q : Request) : Prop where
  method : q.method ≠ "OPTIONS"
  route : ∃ r, Route.ofPath? q.target.path = some r ∧ r ≠ .health

/-- The key that a request carries by a scheme. -/
def Request.Carries (q : Request) (s : Scheme) (key : String) : Prop := s.Carries q.headers q.target.query? key

/-- Whether a request has something for a scheme to use. -/
def Request.CanUse (q : Request) (s : Scheme) : Prop := s.IsUsable q.headers q.target.query?

/-! ## Configured keys -/

section Check

variable {c : Configuration} {q : Request}

theorem passes_iff_unlocks : q.Passes c ↔ q.Unlocks c := by
  constructor
  · intro h
    by_contra hnot
    rw [Request.Passes, checkKey_of_not_unlocks hnot] at h
    cases h
  · exact checkKey_of_unlocks

/-- The first scheme that can be used decides. -/
theorem passes_iff : q.Passes c ↔
    ∃ s key, q.Carries s key ∧ key ∈ c.keys ∧ ∀ s' ∈ s.before, ¬ q.CanUse s' := by
  rw [passes_iff_unlocks]
  constructor
  · rintro ⟨key, hmem, hkey⟩
    obtain ⟨s, hs, hbefore⟩ := Scheme.presentedKey?_eq_some_iff.1 hkey
    exact ⟨s, key, hs, hmem, hbefore⟩
  · rintro ⟨s, key, hs, hmem, hbefore⟩
    exact ⟨key, hmem, Scheme.presentedKey?_eq_some_iff.2 ⟨s, hs, hbefore⟩⟩

theorem trim_of_blank {cs : List Char} (h : ∀ ch ∈ cs, Blank.isBlank ch = true) : Blank.trim cs = [] := by
  rw [Blank.trim, List.dropWhile_eq_nil_iff.2 h]
  rfl

/-- A configuration that is checked has no blank key. -/
theorem not_blank_of_check (hcheck : c.check = .ok ()) {key : String} (hmem : key ∈ c.keys) :
    ¬ ∀ ch ∈ key.toList, Blank.isBlank ch = true := by
  intro hblank
  have hany : c.keys.any (fun key => Blank.trim key.toList = []) = true :=
    List.any_eq_true.2 ⟨key, hmem, decide_eq_true (trim_of_blank hblank)⟩
  rw [Configuration.check, hany] at hcheck
  split at hcheck
  · cases hcheck
  · split at hcheck <;> cases hcheck

end Check

/-! ## Answers without keys -/

/-- A result that is good, or fails for a cause. -/
def Yields {ε α : Type} (Cause : ε → Prop) (Good : α → Prop) : Except ε α → Prop
  | .ok a => Good a
  | .error e => Cause e

theorem yields_bind {ε α β : Type} {Cause : ε → Prop} {Good : α → Prop} {Better : β → Prop} {x : Except ε α}
    {g : α → Except ε β} (hx : Yields Cause Good x) (hg : ∀ a, Good a → Yields Cause Better (g a)) :
    Yields Cause Better (x.bind g) := by
  cases x with
  | ok a => exact hg a hx
  | error e => exact hx

section Answers

variable {c : Configuration} {s : State} {o : Occasion} {q : Request}

/-- An answer that does not ask for a key. -/
def IsAnswer (a : State × Option Response) : Prop := ∀ r, a.2 = some r → r.status ≠ 401

/-- A failure that does not ask for a key. -/
abbrev IsFailure (f : Failure) : Prop := f.status ≠ 401

/-- A rejection that does not ask for a key. -/
abbrev IsRejection (e : Rejection) : Prop := e.response.status ≠ 401

theorem isAnswer_some {r : Response} (h : r.status ≠ 401) : IsAnswer (s, some r) := by
  rintro _ ⟨⟩
  exact h

theorem isAnswer_none : IsAnswer (s, none) := fun _ hr => nomatch hr

theorem yields_orReject {α : Type} {Good : α → Prop} {x : Except Failure α} (h : Yields IsFailure Good x) :
    Yields IsRejection Good (orReject x) := by
  cases x <;> exact h

theorem yields_parameter (name : String) (segment : List Char) :
    Yields IsRejection (fun _ => True) (parameter name segment) := by
  unfold parameter
  cases Percent.decode? segment with
  | none => exact (by decide : 400 ≠ 401)
  | some text => trivial

theorem yields_source (q : Request) : Yields IsRejection (fun _ => True) q.source := by
  unfold Request.source
  split
  · exact (by decide : 413 ≠ 401)
  · trivial

theorem yields_elim {α : Type} (words : String) (a? : Option α) :
    Yields IsFailure (fun _ => True) (a?.elim (.error (.malformedJson words)) .ok) := by
  cases a? with
  | none => exact (by decide : 400 ≠ 401)
  | some a => trivial

theorem isAnswer_reply (p : Provider) (asked? : Option String) (commands : List Script.Command) :
    IsAnswer (reply c s o p asked? commands) := by
  unfold reply
  split
  · exact isAnswer_some (by decide : 200 ≠ 401)
  · exact isAnswer_none

theorem yields_streamed (p : Provider) (asked? : Option String) (script : String) :
    Yields IsFailure IsAnswer (streamed c s o p asked? script) := by
  unfold streamed
  split
  · exact (by decide : 400 ≠ 401)
  · exact isAnswer_reply p asked? _

/-- A script is streamed, or what is lacking for one is told. -/
theorem yields_script {x : Except Failure String} (hx : ∀ f, x = .error f → ∃ text, f = .badRequest text)
    (p : Provider) (asked? : Option String) : Yields IsFailure IsAnswer (x.bind (streamed c s o p asked?)) := by
  cases x with
  | ok script => exact yields_streamed p asked? script
  | error f =>
    obtain ⟨text, rfl⟩ := hx f rfl
    exact (by decide : 400 ≠ 401)

theorem exists_of_chatPrompt {request : ChatRequest} {f : Failure} (h : request.prompt = .error f) :
    ∃ text, f = .badRequest text := by
  obtain ⟨text, hf, -⟩ := ChatRequest.lacks_of_prompt h
  exact ⟨text, hf⟩

theorem exists_of_generationPrompt {request : GenerationRequest} {f : Failure} (h : request.prompt = .error f) :
    ∃ text, f = .badRequest text := by
  obtain ⟨text, hf, -⟩ := GenerationRequest.lacks_of_prompt h
  exact ⟨text, hf⟩

theorem yields_chat (p : Provider) (pathModel? : Option String) :
    Yields IsRejection IsAnswer (chat c s o p pathModel? q) :=
  yields_bind (yields_source q) fun _ _ => yields_orReject <|
    yields_bind (yields_elim _ _) fun _ _ => yields_script (fun _ => exists_of_chatPrompt) p _

theorem yields_modelOfAction (segment : List Char) : Yields IsFailure (fun _ => True) (modelOfAction segment) := by
  unfold modelOfAction
  split
  · exact (by decide : 404 ≠ 401)
  · split
    · trivial
    · exact (by decide : 404 ≠ 401)

theorem yields_generate (segment : List Char) : Yields IsRejection IsAnswer (generate c s o segment q) :=
  yields_bind (yields_source q) fun _ _ => yields_orReject <|
    yields_bind (yields_modelOfAction segment) fun _ _ =>
      yields_bind (yields_elim _ _) fun _ _ => yields_script (fun _ => exists_of_generationPrompt) .gemini _

theorem yields_toolResponse (callId : String) :
    Yields IsFailure (fun r : Response => r.status ≠ 401) (toolResponse s callId) := by
  unfold toolResponse
  split
  · exact (by decide : 200 ≠ 401)
  · exact (by decide : 404 ≠ 401)

/-- No route asks for a key by itself. -/
theorem yields_answer (r : Route) : Yields IsRejection IsAnswer (answer c s o r q) := by
  cases r with
  | health | modelList => exact isAnswer_some (by decide : 200 ≠ 401)
  | toolResponse segment =>
    exact yields_bind (yields_parameter _ segment) fun callId _ =>
      yields_bind (yields_orReject (yields_toolResponse (String.ofList callId))) fun _ h => isAnswer_some h
  | chatCompletions | messages => exact yields_chat _ _
  | deploymentCompletions segment | modelCompletions segment =>
    exact yields_bind (yields_parameter _ segment) fun _ _ => yields_chat _ _
  | generateContent segment => exact yields_bind (yields_parameter _ segment) fun _ _ => yields_generate _

theorem isAnswer_answered (r : Route) : IsAnswer (answered c s o r q) := by
  have h := yields_answer (c := c) (s := s) (o := o) (q := q) r
  unfold answered
  cases hanswer : answer c s o r q with
  | ok a =>
    rw [hanswer] at h
    exact h
  | error e =>
    rw [hanswer] at h
    exact isAnswer_some h

/-- A server without keys never asks for one. -/
theorem isAnswer_dispatched_of_keyless (hkeys : c.keys = []) : IsAnswer (dispatched c s o q) := by
  by_cases hoptions : q.method = "OPTIONS"
  · rw [dispatched, if_pos hoptions]
    cases Route.ofPath? q.target.path <;> exact isAnswer_some (by decide : 200 ≠ 401)
  · rw [dispatched, if_neg hoptions]
    cases Route.ofPath? q.target.path with
    | none => exact isAnswer_some (by decide : 404 ≠ 401)
    | some r =>
      show IsAnswer (routed c s o r q)
      rw [routed, asksKey_of_keyless hkeys]
      cases r.allows q.method with
      | true => exact isAnswer_answered r
      | false => exact isAnswer_some (by decide : 405 ≠ 401)

theorem isAnswer_handle_of_keyless (hkeys : c.keys = []) : IsAnswer (handle c s o q) := by
  intro r hr
  obtain ⟨r', hr', rfl⟩ := Option.map_eq_some_iff.1 hr
  rw [status_finished]
  exact isAnswer_dispatched_of_keyless hkeys r' hr'

/-- What does not pass the check is refused, whatever its method is. -/
theorem handle_of_not_passes (hkeys : c.keys ≠ []) (hq : q.MeetsGuard) (h : ¬ q.Passes c) :
    Responds (fun a => a.1 = s ∧ a.2.status = 401) (handle c s o q) := by
  rw [passes_iff_unlocks] at h
  obtain ⟨r, hpath, hr⟩ := hq.route
  have hrouted : ∃ x, (routed c s o r q).2 = some x ∧ x.status = 401 := by
    rw [routed, if_pos ((asksKey_iff hkeys r).2 hr), checkKey_of_not_unlocks h]
    cases r.allows q.method <;> exact ⟨_, rfl, rfl⟩
  obtain ⟨x, hx, hstatus⟩ := hrouted
  have hdispatched : (dispatched c s o q).2 = some x := by
    rw [dispatched, if_neg hq.method, hpath]
    exact hx
  refine ⟨finished c o q x, congrArg (Option.map (finished c o q)) hdispatched, ?_, ?_⟩
  · exact state_handle_of_not_unlocks hkeys h s o
  · rw [status_finished]
    exact hstatus

end Answers

/-! ## Admission -/

/-- Which requests a configuration lets in, and what becomes of the others. -/
structure Admits (c : Configuration) (q : Request) : Prop where
  passes : q.Passes c ↔ ∃ s key, q.Carries s key ∧ key ∈ c.keys ∧ ∀ s' ∈ s.before, ¬ q.CanUse s'
  /-- No request passes whose schemes carry no configured key. -/
  carried : q.Passes c → ∃ s key, q.Carries s key ∧ key ∈ c.keys
  blank : (∀ s key, q.Carries s key → ∀ ch ∈ key.toList, Blank.isBlank ch = true) → ¬ q.Passes c
  admitted : q.Passes c → ∀ s o,
    handle c s o q = handle { c with keys := [] } s o q ∧ ∀ r, (handle c s o q).2 = some r → r.status ≠ 401
  refused : ¬ q.Passes c → ∀ s o, Responds (fun a => a.1 = s ∧ a.2.status = 401) (handle c s o q)

/-- A server with keys lets in what carries one of them by the first scheme that can be used. -/
theorem admits_of_check {c : Configuration} (hcheck : c.check = .ok ()) (hkeys : c.keys ≠ []) {q : Request}
    (hq : q.MeetsGuard) : Admits c q := by
  have hcarried : q.Passes c → ∃ s key, q.Carries s key ∧ key ∈ c.keys := by
    intro h
    obtain ⟨s, key, hs, hmem, -⟩ := passes_iff.1 h
    exact ⟨s, key, hs, hmem⟩
  exact
    { passes := passes_iff
      carried := hcarried
      blank := by
        intro hblank h
        obtain ⟨s, key, hs, hmem⟩ := hcarried h
        exact not_blank_of_check hcheck hmem (hblank s key hs)
      admitted := by
        intro h s o
        have hhandle := handle_of_unlocks (passes_iff_unlocks.1 h) s o
        exact ⟨hhandle, by rw [hhandle]; exact isAnswer_handle_of_keyless rfl⟩
      refused := fun h s o => handle_of_not_passes hkeys hq h }

/-- A key in the third scheme, with an authorization of another kind and a blank header before it and a wrong key
after it; and a blank key in the query. -/
theorem admits_of_check_one :
    let c : Configuration := { Configuration.default with keys := ["secret"] }
    let right : Request := ⟨"GET", ⟨"/v1/models", some "key=wrong"⟩,
      [("Authorization", "Basic secret"), ("X-Api-Key", " "), ("X-Goog-Api-Key", " secret	")], []⟩
    let blank : Request := ⟨"GET", ⟨"/v1/models", some "key=%20"⟩, [], []⟩
    (c.check = .ok () ∧ c.keys ≠ [] ∧ right.MeetsGuard ∧ blank.MeetsGuard) ∧
      right.Passes c ∧ (∀ s o r, (handle c s o right).2 = some r → r.status ≠ 401) ∧
      ¬ blank.Passes c ∧ ∀ s o, Responds (fun a => a.1 = s ∧ a.2.status = 401) (handle c s o blank) := by
  intro c right blank
  have hcheck : c.check = .ok () := rfl
  have hkeys : c.keys ≠ [] := List.cons_ne_nil _ _
  have hright : right.MeetsGuard := ⟨by decide, .modelList, by decide +kernel, by decide⟩
  have hblank : blank.MeetsGuard := ⟨by decide, .modelList, by decide +kernel, by decide⟩
  have hpasses : right.Passes c := by
    refine (admits_of_check hcheck hkeys hright).passes.2 ⟨.googApiKey, "secret", ?_, by decide, ?_⟩
    · exact Scheme.key?_eq_some_iff.1 (by decide +kernel)
    · have hnone : ∀ s ∈ Scheme.googApiKey.before, s.key? right.headers right.target.query? = none := by decide +kernel
      exact fun s hs => Scheme.not_isUsable_iff.2 (hnone s hs)
  have hnot : ¬ blank.Passes c := by
    apply (admits_of_check hcheck hkeys hblank).blank
    intro s key h
    have hkey := Scheme.key?_eq_some_iff.2 h
    have hall : s.key? blank.headers blank.target.query? = if s = .query then some " " else none := by
      cases s <;> decide +kernel
    rw [hall] at hkey
    split at hkey <;> cases hkey
    exact List.all_eq_true.1 (by decide)
  exact ⟨⟨hcheck, hkeys, hright, hblank⟩, hpasses,
    fun s o => ((admits_of_check hcheck hkeys hright).admitted hpasses s o).2, hnot,
    fun s o => (admits_of_check hcheck hkeys hblank).refused hnot s o⟩

/-- A configured key does not help after a scheme that can be used and carries another. -/
theorem not_passes_of_other_bearer :
    let c : Configuration := { Configuration.default with keys := ["secret"] }
    let q : Request := ⟨"GET", ⟨"/v1/models", none⟩, [("authorization", "Bearer wrong"), ("x-api-key", "secret")], []⟩
    c.check = .ok () ∧ c.keys ≠ [] ∧ q.MeetsGuard ∧ q.Carries .apiKey "secret" ∧ "secret" ∈ c.keys ∧ ¬ q.Passes c := by
  intro c q
  refine ⟨rfl, List.cons_ne_nil _ _, ⟨by decide, .modelList, by decide +kernel, by decide⟩,
    Scheme.key?_eq_some_iff.1 (by decide +kernel), by decide, ?_⟩
  rw [passes_iff_unlocks]
  decide +kernel

end ScriptedModel.Http
