/-
The units of a response. Each command puts out matter: a text its chunks, a tool call itself. In
the flat list of all matter the first becomes the first unit and the last the terminal one, whatever
commands they come from, and the tool calls get identifiers in order.

Main statement: streaming commands into a sink that never closes asks the framer for the frames of
these units, one after another, and then for those that close the response, gives the sink exactly
these frames, and completes.
-/
import Mathlib.Data.List.Forall2
import ScriptedModel.Proofs.Stream.Chunks
import ScriptedModel.Proofs.Stream.Delivery

namespace ScriptedModel.Stream

open Script (Command)

/-! ## Matter and units -/

/-- What a unit puts out, wherever it stands in a response. -/
inductive Matter
  | text (chunk : String)
  | tool (toolName arguments : String) (chunkSize : Nat)
  deriving DecidableEq, Repr

/-- Whether matter is a call. -/
def Matter.isCall : Matter → Bool
  | .text _ => false
  | .tool _ _ _ => true

/-- A unit of a response, of either sort. -/
inductive OutputUnit
  | text (unit : TextUnit)
  | tool (unit : ToolUnit)
  deriving DecidableEq, Repr

/-- The matter of a command, in order. -/
def matter (c : Command) : List Matter :=
  match c.directive with
  | .say content => (chunkText content (effectiveSize content c.settings.chunkSize)).map .text
  | .toolCall toolName arguments => [.tool toolName arguments (effectiveSize arguments c.settings.chunkSize)]

namespace OutputUnit

/-- What a unit puts out. -/
def matter : OutputUnit → Matter
  | .text u => .text u.text
  | .tool u => .tool u.toolName u.arguments u.chunkSize

/-- Whether a unit is marked as the first of its response. -/
def first : OutputUnit → Bool
  | .text u => u.first
  | .tool u => u.first

/-- Whether a unit is marked as the last of its response. -/
def terminal : OutputUnit → Bool
  | .text u => u.terminal
  | .tool u => u.terminal

/-- Whether a unit is a call. -/
def isCall (u : OutputUnit) : Bool := u.matter.isCall

/-- The number of calls up to a unit, where that before it is given. -/
def callsAfter (calls : Nat) : OutputUnit → Nat
  | .text _ => calls
  | .tool _ => calls + 1

end OutputUnit

/-- The units of matter, where `first` tells whether the response begins here and `calls` is the
number of calls before. -/
def place (callId : Nat → String) : Bool → Nat → List Matter → List OutputUnit
  | _, _, [] => []
  | first, calls, .text chunk :: rest =>
    .text ⟨chunk, first, rest.isEmpty⟩ :: place callId false calls rest
  | first, calls, .tool toolName arguments size :: rest =>
    .tool ⟨callId calls, toolName, arguments, size, first, rest.isEmpty⟩ :: place callId false (calls + 1) rest

/-- The units of a response. -/
def units (x : Context) (cs : List Command) : List OutputUnit := place x.callId true 0 (cs.flatMap matter)

section Place

variable (callId : Nat → String) (first : Bool) (calls : Nat)

theorem length_place (ms : List Matter) : (place callId first calls ms).length = ms.length := by
  fun_induction place callId first calls ms with
  | case1 => rfl
  | case2 first calls chunk rest ih => rw [List.length_cons, ih]; rfl
  | case3 first calls toolName arguments size rest ih => rw [List.length_cons, ih]; rfl

theorem matter_place (ms : List Matter) : (place callId first calls ms).map OutputUnit.matter = ms := by
  fun_induction place callId first calls ms with
  | case1 => rfl
  | case2 first calls chunk rest ih => rw [List.map_cons, ih]; rfl
  | case3 first calls toolName arguments size rest ih => rw [List.map_cons, ih]; rfl

/-- Only the unit at index 0 can be marked as the first, and only the last is marked as terminal. -/
theorem marks_place (ms : List Matter) :
    ∀ i u, (place callId first calls ms)[i]? = some u →
      u.first = (first && i == 0) ∧ u.terminal = (i + 1 == ms.length) := by
  have hempty : ∀ rest : List Matter, rest.isEmpty = (0 + 1 == rest.length + 1) := by
    intro rest
    cases rest <;> simp
  have hlater : ∀ (i : Nat) (rest : List Matter), (i + 1 == rest.length) = (i + 1 + 1 == rest.length + 1) := by
    intro i rest
    simp
  fun_induction place callId first calls ms with
  | case1 => simp
  | case2 first calls chunk rest ih =>
    rintro (_ | i) u h
    · cases h
      exact ⟨(Bool.and_true _).symm, hempty rest⟩
    · obtain ⟨hf, ht⟩ := ih i u h
      exact ⟨by rw [hf]; simp, ht.trans (hlater i rest)⟩
  | case3 first calls toolName arguments size rest ih =>
    rintro (_ | i) u h
    · cases h
      exact ⟨(Bool.and_true _).symm, hempty rest⟩
    · obtain ⟨hf, ht⟩ := ih i u h
      exact ⟨by rw [hf]; simp, ht.trans (hlater i rest)⟩

end Place

/-! ## Frames of units -/

section Walk

variable {σ : Type} [Framer σ]

namespace Framer

/-- What a framer makes of a unit. -/
def answer (s : σ) : OutputUnit → σ × List String
  | .text u => Framer.text s u
  | .tool u => Framer.toolCall s u

/-- What a framer makes of units, one after another. -/
def answerAll : σ → List OutputUnit → σ × List String
  | s, [] => (s, [])
  | s, u :: us => ((answerAll (answer s u).1 us).1, (answer s u).2 ++ (answerAll (answer s u).1 us).2)

/-- All frames of a response: those of its units and those that close it. -/
def framesOf (s : σ) (us : List OutputUnit) : List String :=
  (answerAll s us).2 ++ (Framer.close (answerAll s us).1).2

theorem framesOf_cons (s : σ) (u : OutputUnit) (us : List OutputUnit) :
    framesOf s (u :: us) = (answer s u).2 ++ framesOf (answer s u).1 us := by
  rw [framesOf, framesOf, answerAll, List.append_assoc]

end Framer

/-! ## Actions of units -/

/-- The pause of the command that each unit comes from, from the n-th command on. -/
def pauses (x : Context) : Nat → List Command → List Nat
  | _, [] => []
  | n, c :: cs => (matter c).map (fun _ => latency x.defaultLatency (x.draw n) c.settings) ++ pauses x (n + 1) cs

theorem length_pauses (x : Context) (n : Nat) (cs : List Command) :
    (pauses x n cs).length = (cs.flatMap matter).length := by
  induction cs generalizing n with
  | nil => rfl
  | cons c cs ih => rw [pauses, List.flatMap_cons, List.length_append, List.length_append, List.length_map, ih]

/-- What precedes the frames of a unit after some calls: a pause before text, unless the response begins
with it, and the storing of a call as of its moment. -/
def leadActions (x : Context) (provider : Provider) (pause calls : Nat) : OutputUnit → List Action
  | .text u => if u.first then [] else [.pause pause]
  | .tool u => [.store (.ofCall u.callId u.toolName u.arguments provider (x.callTime calls))]

/-- The actions of units with their pauses after some calls, and the framer after them. -/
def unitActions (x : Context) (provider : Provider) : σ → Nat → List (Nat × OutputUnit) → List Action × σ
  | s, _, [] => ([], s)
  | s, calls, (pause, u) :: us =>
    let framed := Framer.answer s u
    let later := unitActions x provider framed.1 (u.callsAfter calls) us
    (leadActions x provider pause calls u ++ framed.2.map .send ++ later.1, later.2)

variable (x : Context) (provider : Provider)

theorem unitActions_snd (s : σ) (calls : Nat) (us : List (Nat × OutputUnit)) :
    (unitActions x provider s calls us).2 = (Framer.answerAll s (us.map Prod.snd)).1 := by
  induction us generalizing s calls with
  | nil => rfl
  | cons u us ih => exact ih (Framer.answer s u.2).1 (u.2.callsAfter calls)

theorem frames_leadActions (pause calls : Nat) (u : OutputUnit) :
    (leadActions x provider pause calls u).filterMap Action.frame? = [] := by
  unfold leadActions
  split
  · split <;> rfl
  · rfl

theorem frames_unitActions (s : σ) (calls : Nat) (us : List (Nat × OutputUnit)) :
    (unitActions x provider s calls us).1.filterMap Action.frame? = (Framer.answerAll s (us.map Prod.snd)).2 := by
  induction us generalizing s calls with
  | nil => rfl
  | cons u us ih =>
    rw [unitActions, List.filterMap_append, List.filterMap_append, frames_leadActions, frames_map_send, ih]
    rfl

/-- The calls of units after some calls, each as it is stored. -/
def storedOf : Nat → List OutputUnit → List StoredResponse
  | _, [] => []
  | calls, .text _ :: us => storedOf calls us
  | calls, .tool u :: us =>
    .ofCall u.callId u.toolName u.arguments provider (x.callTime calls) :: storedOf (calls + 1) us

theorem stored_unitActions (s : σ) (calls : Nat) (us : List (Nat × OutputUnit)) :
    (unitActions x provider s calls us).1.filterMap Action.stored? =
      storedOf x provider calls (us.map Prod.snd) := by
  induction us generalizing s calls with
  | nil => rfl
  | cons u us ih =>
    rw [unitActions, List.filterMap_append, List.filterMap_append, stored_map_send, ih]
    obtain ⟨pause, u | u⟩ := u
    · show (if u.first then [] else [Action.pause pause]).filterMap Action.stored? ++ [] ++ _ = _
      cases u.first <;> rfl
    · rfl

/-- The chunks of a text are units like any other. -/
theorem textActions_eq (pause calls : Nat) (later : List Matter) (ps : List Nat) (chunks : List String)
    (first : Bool) (s : σ) :
    unitActions x provider s calls ((chunks.map (fun _ => pause) ++ ps).zip
        (place x.callId first calls (chunks.map .text ++ later))) =
      let now := textActions pause later.isEmpty first s chunks
      let rest := unitActions x provider now.2 calls (ps.zip (place x.callId (first && chunks.isEmpty) calls later))
      (now.1 ++ rest.1, rest.2) := by
  -- The induction keeps what comes after the chunks, so that the last chunk knows whether it is the last unit.
  induction chunks generalizing first s with
  | nil => simp [textActions]
  | cons chunk chunks ih =>
    have hlast : (chunks.map Matter.text ++ later).isEmpty = (later.isEmpty && chunks.isEmpty) := by
      cases chunks with
      | nil => exact (Bool.and_true _).symm
      | cons => exact (Bool.and_false _).symm
    have hfirst : (first && (chunk :: chunks).isEmpty) = (false && chunks.isEmpty) := by simp
    rw [hfirst, List.map_cons, List.map_cons, List.cons_append, List.cons_append, place, List.zip_cons_cons,
      unitActions, OutputUnit.callsAfter, ih, hlast]
    simp only [textActions, leadActions, Framer.answer, List.append_assoc]

theorem matter_ne_nil (c : Command) : matter c ≠ [] := by
  unfold matter
  split
  · exact fun h => chunkText_ne_nil _ _ (List.map_eq_nil_iff.1 h)
  · exact List.cons_ne_nil _ _

theorem flatMap_matter_isEmpty (cs : List Command) : (cs.flatMap matter).isEmpty = cs.isEmpty := by
  cases cs with
  | nil => rfl
  | cons c cs =>
    obtain ⟨m, ms, h⟩ := List.exists_cons_of_ne_nil (matter_ne_nil c)
    rw [List.flatMap_cons, h]
    rfl

theorem flatMap_matter_ne_nil {cs : List Command} (hcs : cs ≠ []) : cs.flatMap matter ≠ [] := by
  rw [← List.isEmpty_eq_false_iff, flatMap_matter_isEmpty, List.isEmpty_eq_false_iff]
  exact hcs

theorem getLast?_matter (c : Command) : (matter c).getLast?.map Matter.isCall = some c.isToolCall := by
  obtain ⟨content | ⟨toolName, arguments⟩, settings⟩ := c
  · have hchunks := chunkText_ne_nil content (effectiveSize content settings.chunkSize)
    show ((chunkText content (effectiveSize content settings.chunkSize)).map Matter.text).getLast?.map _ = some false
    rw [List.getLast?_map, List.getLast?_eq_some_getLast hchunks]
    rfl
  · rfl

theorem getLast?_flatMap_matter (cs : List Command) :
    (cs.flatMap matter).getLast?.map Matter.isCall = cs.getLast?.map Command.isToolCall := by
  induction cs with
  | nil => rfl
  | cons c cs ih =>
    rw [List.flatMap_cons, List.getLast?_append, Option.map_or, ih, getLast?_matter, List.getLast?_cons]
    cases cs.getLast? <;> rfl

theorem getLast?_units (x : Context) (cs : List Command) :
    (units x cs).getLast?.map OutputUnit.isCall = cs.getLast?.map Command.isToolCall := by
  have h := congrArg List.getLast? (matter_place x.callId true 0 (cs.flatMap matter))
  rw [← getLast?_flatMap_matter, ← h, List.getLast?_map, Option.map_map]
  rfl

theorem commandActions_eq (later : List Matter) (ps : List Nat) (c : Command) (p : Progress σ) :
    unitActions x provider p.framer p.calls
        (((matter c).map (fun _ => latency x.defaultLatency (x.draw p.commands) c.settings) ++ ps).zip
          (place x.callId p.first p.calls (matter c ++ later))) =
      let (now, q) := commandActions x provider p later.isEmpty c
      let rest := unitActions x provider q.framer q.calls (ps.zip (place x.callId q.first q.calls later))
      (now ++ rest.1, rest.2) := by
  unfold matter commandActions
  cases c.directive with
  | say content =>
    have hchunks := chunkText_ne_nil content (effectiveSize content c.settings.chunkSize)
    simp only [List.map_map]
    have h := textActions_eq x provider (latency x.defaultLatency (x.draw p.commands) c.settings) p.calls later ps
      (chunkText content (effectiveSize content c.settings.chunkSize)) p.first p.framer
    -- A text always has a chunk, so the response has begun after it.
    rw [List.isEmpty_eq_false_iff.2 hchunks, Bool.and_false] at h
    exact h
  | toolCall toolName arguments =>
    simp only [List.map_cons, List.map_nil, List.cons_append, List.nil_append, place, List.zip_cons_cons,
      unitActions, leadActions, OutputUnit.callsAfter, Framer.answer]

theorem commandActions_commands (isLast : Bool) (c : Command) (p : Progress σ) :
    (commandActions x provider p isLast c).2.commands = p.commands + 1 := by
  unfold commandActions
  cases c.directive <;> rfl

/-- The actions of commands are those of their units. -/
theorem commandsActions_eq (cs : List Command) (p : Progress σ) :
    unitActions x provider p.framer p.calls
        ((pauses x p.commands cs).zip (place x.callId p.first p.calls (cs.flatMap matter))) =
      ((commandsActions x provider p cs).1, (commandsActions x provider p cs).2.framer) := by
  induction cs generalizing p with
  | nil => rfl
  | cons c cs ih =>
    rw [pauses, List.flatMap_cons, commandActions_eq, flatMap_matter_isEmpty, commandsActions]
    have h := ih (commandActions x provider p cs.isEmpty c).2
    rw [commandActions_commands] at h
    simp only [h]

theorem zip_pauses_units (cs : List Command) :
    ((pauses x 0 cs).zip (units x cs)).map Prod.snd = units x cs := by
  apply List.map_snd_zip
  apply Nat.le_of_eq
  rw [units, length_place, length_pauses]

theorem unitActions_units (s : σ) (cs : List Command) :
    unitActions x (Framer.provider s) s 0 ((pauses x 0 cs).zip (units x cs)) =
      ((commandsActions x (Framer.provider s) ⟨s, true, 0, 0⟩ cs).1,
        (commandsActions x (Framer.provider s) ⟨s, true, 0, 0⟩ cs).2.framer) :=
  commandsActions_eq x (Framer.provider s) cs ⟨s, true, 0, 0⟩

/-- The units are all that the framer is asked for before it closes the response. -/
theorem framer_commandsActions (s : σ) (cs : List Command) :
    (commandsActions x (Framer.provider s) ⟨s, true, 0, 0⟩ cs).2.framer = (Framer.answerAll s (units x cs)).1 := by
  have h := unitActions_snd x (Framer.provider s) s 0 ((pauses x 0 cs).zip (units x cs))
  rw [zip_pauses_units, unitActions_units] at h
  exact h

/-- A response with commands does what its units do, and closes. -/
theorem schedule_eq (s : σ) {cs : List Command} (hcs : cs ≠ []) :
    schedule x s cs =
      (unitActions x (Framer.provider s) s 0 ((pauses x 0 cs).zip (units x cs))).1 ++
        closeActions (Framer.answerAll s (units x cs)).1 := by
  rw [unitActions_units, ← framer_commandsActions x s cs, schedule, List.isEmpty_eq_false_iff.2 hcs]
  rfl

/-- A response with commands sends the frames of its units and those that close it. -/
theorem frames_schedule (s : σ) {cs : List Command} (hcs : cs ≠ []) :
    (schedule x s cs).filterMap Action.frame? = Framer.framesOf s (units x cs) := by
  rw [schedule_eq x s hcs, List.filterMap_append, frames_unitActions, zip_pauses_units, closeActions, frames_map_send]
  rfl

/-- The commands that are streamed: those given, or the notice that there are none. -/
def spoken (cs : List Command) : List Command := if cs = [] then [⟨.say emptyNotice, .unset⟩] else cs

theorem spoken_ne_nil (cs : List Command) : spoken cs ≠ [] := by
  unfold spoken
  split
  · exact List.cons_ne_nil _ _
  · assumption

/-- What is made of each command is the same for commands of which it is the same one by one. -/
theorem flatMap_spoken_congr {α : Type} {R : Command → Command → Prop} {f : Command → List α}
    (hf : ∀ c d, R c d → f c = f d) {cs ds : List Command} (h : List.Forall₂ R cs ds) :
    (spoken cs).flatMap f = (spoken ds).flatMap f := by
  have hcommands : cs.flatMap f = ds.flatMap f := by
    induction h with
    | nil => rfl
    | cons hcd _ ih => rw [List.flatMap_cons, List.flatMap_cons, hf _ _ hcd, ih]
  cases h with
  | nil => rfl
  | cons => exact hcommands

/-- A response without commands is that of a command that says so. -/
theorem schedule_spoken (s : σ) (cs : List Command) : schedule x s (spoken cs) = schedule x s cs := by
  unfold spoken
  split
  case isFalse => rfl
  case isTrue h =>
    subst h
    -- The notice is one chunk, first and terminal at once.
    have hchunks := chunkText_unset emptyNotice
    simp only [schedule, commandsActions, commandActions, Script.Settings.unset, hchunks, textActions]
    simp

theorem stored_schedule (s : σ) {cs : List Command} (hcs : cs ≠ []) :
    (schedule x s cs).filterMap Action.stored? = storedOf x (Framer.provider s) 0 (units x cs) := by
  rw [schedule_eq x s hcs, List.filterMap_append, stored_unitActions, zip_pauses_units, closeActions, stored_map_send,
    List.append_nil]

end Walk

/-! ## Streaming -/

theorem units_ne_nil (x : Context) {cs : List Command} (hcs : cs ≠ []) : units x cs ≠ [] := by
  intro h
  have hlength := length_place x.callId true 0 (cs.flatMap matter)
  rw [← units, h] at hlength
  exact flatMap_matter_ne_nil hcs (List.length_eq_zero_iff.1 hlength.symm)

/-- Streaming commands into a sink that never closes gives it the frames of the units, each asked for
once, and those that close the response, and completes. The units are the matter of the commands, in
order; the first and no other is marked as such, and so is the last. No text is without chunks. -/
theorem perform_schedule_units {σ κ : Type} [Framer σ] [Sink κ] (x : Context) (s : σ) {k : κ}
    (hk : Sink.NeverCloses k) {cs : List Command} (hcs : cs ≠ []) :
    ((units x cs).map OutputUnit.matter = cs.flatMap matter ∧
      units x cs ≠ [] ∧
      ∀ i u, (units x cs)[i]? = some u →
        (u.first = true ↔ i = 0) ∧ (u.terminal = true ↔ i + 1 = (units x cs).length)) ∧
    (commandsActions x (Framer.provider s) ⟨s, true, 0, 0⟩ cs).2.framer = (Framer.answerAll s (units x cs)).1 ∧
    Sink.takeAll? k (Framer.framesOf s (units x cs)) = some (perform k (schedule x s cs)).collector ∧
    (perform k (schedule x s cs)).outcome = .completed ∧
    (perform k (schedule x s cs)).taken = (Framer.framesOf s (units x cs)).length ∧
    0 < cs.length ∧ ∀ text size, 0 < (chunkText text size).length := by
  have hrun := perform_delivers (perform_neverCloses hk (schedule x s cs))
  have hframes := hrun.frames
  have htaken := hrun.taken
  rw [frames_schedule x s hcs] at hframes htaken
  refine ⟨⟨matter_place x.callId true 0 _, units_ne_nil x hcs, fun i u hu => ?_⟩, framer_commandsActions x s cs,
    hframes, hrun.outcome, htaken, List.length_pos_iff.2 hcs,
    fun text size => List.length_pos_iff.2 (chunkText_ne_nil text size)⟩
  obtain ⟨hfirst, hterminal⟩ := marks_place x.callId true 0 (cs.flatMap matter) i u hu
  rw [hfirst, hterminal, units, length_place]
  exact ⟨by simp, beq_iff_eq⟩

/-- A text of two chunks and a call are three units, streamed into a collector without a limit. -/
theorem perform_schedule_units_three :
    let x : Context := ⟨"m", 0, 0, fun _ => "id", fun _ => "", fun _ => 0⟩
    let cs : List Command := [⟨.say "ab", ⟨some 1, none, none⟩⟩, ⟨.toolCall "f" "", .unset⟩]
    let s := Anthropic.State.initial "msg" "m"
    units x cs = [.text ⟨"a", true, false⟩, .text ⟨"b", false, false⟩, .tool ⟨"id", "f", "", 1, false, true⟩] ∧
      Sink.NeverCloses (Collector.empty none) ∧ cs ≠ [] ∧
      (perform (Collector.empty none) (schedule x s cs)).outcome = .completed ∧
      (perform (Collector.empty none) (schedule x s cs)).taken = 10 := by
  intro x cs s
  have hunits : units x cs =
      [.text ⟨"a", true, false⟩, .text ⟨"b", false, false⟩, .tool ⟨"id", "f", "", 1, false, true⟩] := by
    simp [units, matter, cs, chunkText, effectiveSize, pieces, place, x, Script.Settings.unset]
  have hopen : Sink.NeverCloses (Collector.empty none) := Collector.neverCloses_unlimited #[]
  have hcs : cs ≠ [] := List.cons_ne_nil _ _
  obtain ⟨-, -, -, houtcome, htaken, -⟩ := perform_schedule_units x s hopen hcs
  refine ⟨hunits, hopen, hcs, houtcome, ?_⟩
  rw [htaken, hunits]
  rfl

end ScriptedModel.Stream
