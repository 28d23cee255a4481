/-
The documents of a Gemini reply, one for each chunk of text and one for each call, each on a line of its
own.

Main statement: a completed stream has given its sink the documents of its commands, or of the notice
that there are none. Each is read by itself and has one candidate with one part; the last alone gives a
reason to finish and has no line feed. They depend on what is said and in which chunks, and on the calls
with their arguments whole, and on nothing else.
-/
import ScriptedModel.Proofs.Client.Ending

namespace ScriptedModel.Client.Gemini

open Json (Value)
open Script (Command)
open ScriptedModel.Stream

/-! ## Parts -/

/-- The part that carries a chunk of text. -/
def textPart (chunk : String) : Value := .object [("text", .string chunk)]

/-- The part that makes a call, with its arguments as an object. -/
def callPart (toolName arguments : String) : Value :=
  .object [("functionCall", .object [("args", structuredArguments arguments), ("name", .string toolName)])]

/-- The parts of a command: its chunks, or its call. -/
def commandParts (c : Command) : List Value :=
  match c.directive with
  | .say content => (chunkText content (effectiveSize content c.settings.chunkSize)).map textPart
  | .toolCall toolName arguments => [callPart toolName arguments]

/-- The parts of a reply, of which the notice is the only one where there are no commands. -/
def replyParts (cs : List Command) : List Value :=
  if cs = [] then [textPart emptyNotice] else cs.flatMap commandParts

/-- Commands that put out the same, in the same chunks if it is text. -/
def PutOutAlike (c d : Command) : Prop :=
  c.directive = d.directive ∧ (c.isToolCall = true ∨ c.settings.chunkSize = d.settings.chunkSize)

/-- The frames of a reply with these parts. -/
structure IsReply (parts : List Value) (frames : List String) : Prop where
  count : frames.length = parts.length
  documents : ∀ i frame, frames[i]? = some frame → ∃ v candidate part : Value,
    Json.Document.ofSource? (Json.sourceOf frame) = some v.document ∧
    v = .object [("candidates", .array [candidate])] ∧
    (candidate.member? "content").bind (·.member? "parts") = some (.array [part]) ∧ parts[i]? = some part ∧
    candidate.member? "finishReason" = if i + 1 = frames.length then some (.string "STOP") else none
  lines : ∀ i frame, frames[i]? = some frame → ∃ line : String,
    '\n' ∉ line.toList ∧ frame = if i + 1 = frames.length then line else line ++ "\n"

/-! ## Frames of parts -/

/-- The part of a document that carries this matter. -/
def partOf : Matter → Stream.Gemini.Part
  | .text chunk => .text chunk
  | .tool toolName arguments _ => .functionCall toolName (structuredArguments arguments)

/-- The frames of parts, where the last is the last of its reply. -/
def framesOfParts : List Stream.Gemini.Part → List String
  | [] => []
  | p :: ps => (⟨p, ps.isEmpty⟩ : Stream.Gemini.Document).frame :: framesOfParts ps

theorem framesOf_place (callId : Nat → String) (first : Bool) (calls : Nat) (ms : List Matter) :
    (place callId first calls ms).map (fun u => (document u).frame) = framesOfParts (ms.map partOf) := by
  fun_induction place callId first calls ms with
  | case1 => rfl
  | case2 first calls chunk rest ih =>
    rw [List.map_cons, ih, List.map_cons, framesOfParts, List.isEmpty_map]
    rfl
  | case3 first calls toolName arguments size rest ih =>
    rw [List.map_cons, ih, List.map_cons, framesOfParts, List.isEmpty_map]
    rfl

theorem length_framesOfParts (ps : List Stream.Gemini.Part) : (framesOfParts ps).length = ps.length := by
  induction ps with
  | nil => rfl
  | cons p ps ih => rw [framesOfParts, List.length_cons, ih, List.length_cons]

theorem getElem?_framesOfParts {ps : List Stream.Gemini.Part} {i : Nat} {frame : String}
    (h : (framesOfParts ps)[i]? = some frame) :
    ∃ p, ps[i]? = some p ∧ frame = (⟨p, i + 1 == ps.length⟩ : Stream.Gemini.Document).frame := by
  induction ps generalizing i with
  | nil => cases h
  | cons p ps ih =>
    cases i with
    | zero =>
      cases h
      refine ⟨p, rfl, ?_⟩
      cases ps <;> rfl
    | succ i =>
      obtain ⟨q, hq, hframe⟩ := ih h
      exact ⟨q, hq, by simpa using hframe⟩

theorem isReply_framesOfParts (ps : List Stream.Gemini.Part) :
    IsReply (ps.map Stream.Gemini.Part.toJson) (framesOfParts ps) := by
  constructor
  case count => rw [length_framesOfParts, List.length_map]
  case documents =>
    rintro i frame h
    obtain ⟨p, hp, rfl⟩ := getElem?_framesOfParts h
    rw [length_framesOfParts]
    refine ⟨_, _, p.toJson, Message.ofSource?_frame ⟨p, i + 1 == ps.length⟩, rfl, rfl, by simp [hp], ?_⟩
    unfold Stream.Gemini.Document.candidate
    by_cases hi : i + 1 = ps.length <;> simp [hi, Value.member?]
  case lines =>
    rintro i frame h
    obtain ⟨p, -, rfl⟩ := getElem?_framesOfParts h
    rw [length_framesOfParts]
    refine ⟨(⟨p, i + 1 == ps.length⟩ : Stream.Gemini.Document).toJson.compact, ?_, ?_⟩
    · rw [Value.compact, String.toList_ofList]
      exact lineFeed_notMem_write _
    · unfold Stream.Gemini.Document.frame
      by_cases hi : i + 1 = ps.length <;> simp [hi]

/-! ## Parts of commands -/

theorem map_partOf_matter (c : Command) : ((matter c).map partOf).map Stream.Gemini.Part.toJson = commandParts c := by
  obtain ⟨content | ⟨toolName, arguments⟩, settings⟩ := c
  · rw [matter, commandParts, List.map_map, List.map_map]
    rfl
  · rfl

theorem map_partOf_spoken (cs : List Command) :
    (((spoken cs).flatMap matter).map partOf).map Stream.Gemini.Part.toJson = replyParts cs := by
  have hparts : ∀ cs : List Command, ((cs.flatMap matter).map partOf).map Stream.Gemini.Part.toJson =
      cs.flatMap commandParts := by
    intro cs
    simp only [List.map_flatMap, map_partOf_matter]
  have hnotice : commandParts ⟨.say emptyNotice, .unset⟩ = [textPart emptyNotice] :=
    congrArg (List.map textPart) (chunkText_unset emptyNotice)
  unfold spoken replyParts
  split
  · rw [hparts, List.flatMap_singleton, hnotice]
  · exact hparts cs

theorem partOf_matter_congr {c d : Command} (h : PutOutAlike c d) : (matter c).map partOf = (matter d).map partOf := by
  obtain ⟨directive, settings⟩ := c
  obtain ⟨directive', settings'⟩ := d
  obtain ⟨rfl, hsize⟩ := h
  cases directive with
  | say content =>
    obtain hcall | hsize := hsize
    · cases hcall
    · rw [matter, matter, hsize]
  | toolCall toolName arguments => rfl

theorem partOf_spoken_congr {cs ds : List Command} (h : List.Forall₂ PutOutAlike cs ds) :
    ((spoken cs).flatMap matter).map partOf = ((spoken ds).flatMap matter).map partOf := by
  rw [List.map_flatMap, List.map_flatMap]
  exact flatMap_spoken_congr (f := fun c => (matter c).map partOf) (fun _ _ => partOf_matter_congr) h

theorem frames_schedule_eq (x : Context) (replyId : String) (cs : List Command) :
    (Provider.gemini.schedule x replyId cs).filterMap Action.frame? =
      framesOfParts (((spoken cs).flatMap matter).map partOf) := by
  rw [Provider.schedule, ← schedule_spoken, frames_schedule x _ (spoken_ne_nil cs), framesOf_eq, units, framesOf_place]

/-- What a completed stream has given its sink is the documents of its commands, one for each chunk and one
for each call, whatever the model, the identifiers and the sizes set for calls. -/
theorem perform_replies {κ : Type} [Sink κ] (x : Context) (replyId : String) (cs : List Command) (k : κ)
    (h : (perform k (Provider.gemini.schedule x replyId cs)).outcome = .completed) :
    ∃ frames, IsReply (replyParts cs) frames ∧
      Sink.takeAll? k frames = some (perform k (Provider.gemini.schedule x replyId cs)).collector ∧
      (perform k (Provider.gemini.schedule x replyId cs)).taken = frames.length ∧
      ∀ (y : Context) (otherId : String) (ds : List Command) (j : κ), List.Forall₂ PutOutAlike cs ds →
        (perform j (Provider.gemini.schedule y otherId ds)).outcome = .completed →
        Sink.takeAll? j frames = some (perform j (Provider.gemini.schedule y otherId ds)).collector := by
  have hrun := perform_delivers h
  have hframes := hrun.frames
  have htaken := hrun.taken
  rw [frames_schedule_eq] at hframes htaken
  refine ⟨_, ?_, hframes, htaken, ?_⟩
  · rw [← map_partOf_spoken]
    exact isReply_framesOfParts _
  · intro y otherId ds j halike hcompleted
    have hother := (perform_delivers hcompleted).frames
    rw [frames_schedule_eq, ← partOf_spoken_congr halike] at hother
    exact hother

/-- A text of two chunks and a call, for which a size is set too, streamed into a collector without a limit. -/
theorem perform_replies_three :
    let x : Context := ⟨"m", 0, 7, fun _ => "a", fun _ => "", fun _ => 0⟩
    let cs : List Command := [⟨.say "hi", ⟨some 1, none, none⟩⟩, ⟨.toolCall "f" "[]", ⟨some 1, none, none⟩⟩]
    let run := perform (Collector.empty none) (Provider.gemini.schedule x "" cs)
    run.outcome = .completed ∧
      IsReply [textPart "h", textPart "i", callPart "f" "[]"] run.collector.frames.toList := by
  intro x cs run
  have hrun : run.outcome = .completed := (Collector.perform_unlimited _).outcome
  obtain ⟨frames, hreply, hframes, -⟩ := perform_replies x "" cs (Collector.empty none) hrun
  have hparts : replyParts cs = [textPart "h", textPart "i", callPart "f" "[]"] := by
    simp [cs, replyParts, commandParts, chunkText, effectiveSize, pieces]
  have htaken : run.collector.frames.toList = [] ++ frames := Collector.frames_of_takeAll? hframes
  rw [hparts] at hreply
  rw [htaken]
  exact ⟨hrun, hreply⟩

end ScriptedModel.Client.Gemini
