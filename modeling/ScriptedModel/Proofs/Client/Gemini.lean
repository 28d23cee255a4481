/-
A client of the Gemini format: it reads each line of a reply that is not empty as a document, and
takes the parts of the first candidate one after another.

Main statement: from the frames of a response it gets the transcript of its commands, the arguments
of each call as the document of the object that they make.
-/
import ScriptedModel.Proofs.Client.Transcript
import ScriptedModel.Proofs.Json.Writing
import ScriptedModel.Proofs.Text.Split

namespace ScriptedModel.Client.Gemini

open Json (Value)
open ScriptedModel.Stream (Context Framer Matter OutputUnit place units)
open ScriptedModel.Stream.Gemini (State)

/-! ## The client -/

/-- A part of a reply: text, or a call. -/
inductive Part
  | text (added : String)
  | call (toolName : String) (arguments : Json.Document)
  deriving Repr

namespace Part

/-- The call that a document describes. -/
def call? (d : Json.Document) : Option Part := do
  return .call (← (← d.member? "name").string?) (← d.member? "args")

/-- The part that a document is. -/
def ofDocument? (d : Json.Document) : Option Part :=
  match d.member? "functionCall" with
  | some called => call? called
  | none => ((d.member? "text").bind Json.Document.string?).map .text

end Part

/-- The parts of the first candidate of a document. -/
def parts? (d : Json.Document) : Option (List Part) := do
  let candidate ← (← d.member? "candidates").first?
  (← (← candidate.member? "content").member? "parts").list? Part.ofDocument?

/-- Adds a part to a transcript. -/
def tellPart (t : Transcript Json.Document) : Part → Transcript Json.Document
  | .text added => t.say added
  | .call toolName arguments => t.call toolName arguments

/-- The transcript of the body of a reply. -/
def transcript? (body : String) : Option (Transcript Json.Document) := do
  let lines := (Split.pieces '\n' body.toList).filter (· ≠ [])
  let parts ← lines.mapM fun line => (Json.Document.ofSource? (line.map some)).bind parts?
  return parts.flatten.foldl tellPart .empty

/-! ## Reading documents -/

/-- What a client gets of a part. -/
def received : Stream.Gemini.Part → Part
  | .text content => .text content
  | .functionCall name args => .call name args.document

theorem ofDocument?_document (p : Stream.Gemini.Part) : Part.ofDocument? p.toJson.document = some (received p) := by
  cases p with
  | text content =>
    simp [Part.ofDocument?, Json.Document.member?_document, Stream.Gemini.Part.toJson, Value.member?,
      Json.Document.string?_document, received]
  | functionCall name args =>
    simp [Part.ofDocument?, Part.call?, Json.Document.member?_document, Stream.Gemini.Part.toJson, Value.member?,
      Json.Document.string?_document, received]

theorem parts?_document (d : Stream.Gemini.Document) : parts? d.toJson.document = some [received d.part] := by
  have hparts : parts? d.toJson.document = [d.part.toJson.document].mapM Part.ofDocument? := rfl
  rw [hparts, List.mapM_cons, ofDocument?_document]
  rfl

/-! ## Documents of units -/

/-- The document of a unit. -/
def document : OutputUnit → Stream.Gemini.Document
  | .text u => Stream.Gemini.textDocument u
  | .tool u => Stream.Gemini.toolDocument u

theorem framesOf_eq (s : State) (us : List OutputUnit) :
    Framer.framesOf s us = us.map fun u => (document u).frame := by
  induction us generalizing s with
  | nil => rfl
  | cons u us ih =>
    have hanswer : Framer.answer s u = (s, [(document u).frame]) := by
      cases u <;> rfl
    rw [Framer.framesOf_cons, hanswer, ih]
    rfl

theorem lineFeed_notMem_write (v : Value) : '\n' ∉ v.write := fun h =>
  absurd (v.noControls_write '\n' h) (by decide)

theorem pieces_cons (d : Stream.Gemini.Document) (frames : List String) (h : d.terminal = frames.isEmpty) :
    Split.pieces '\n' (String.join (d.frame :: frames)).toList =
      d.toJson.write :: if frames.isEmpty then [] else Split.pieces '\n' (String.join frames).toList := by
  rw [String.join_cons, String.toList_append, Stream.Gemini.Document.frame, Value.compact, h, String.toList_append,
    String.toList_ofList]
  cases frames with
  | nil =>
    have hend : (if ([] : List String).isEmpty then "" else "\n").toList = [] := rfl
    rw [hend, String.join_nil, String.toList_empty, List.append_nil, List.append_nil]
    exact Split.pieces_of_notMem (lineFeed_notMem_write d.toJson)
  | cons frame frames =>
    have hend : (if (frame :: frames).isEmpty then "" else "\n").toList = ['\n'] := by simp
    rw [hend, List.append_assoc]
    exact Split.pieces_append (lineFeed_notMem_write d.toJson) _

/-- The lines of the frames of units are the documents of the units, one a line; the last ends the
text. -/
theorem pieces_frames (callId : Nat → String) (first : Bool) (calls : Nat) {ms : List Matter} (hms : ms ≠ []) :
    Split.pieces '\n' (String.join ((place callId first calls ms).map fun u => (document u).frame)).toList =
      (place callId first calls ms).map fun u => (document u).toJson.write := by
  -- A unit is terminal where no frame comes after it.
  have hempty : ∀ first calls rest, ((place callId first calls rest).map fun u => (document u).frame).isEmpty =
      rest.isEmpty := by
    intro first calls rest
    rw [List.isEmpty_map]
    cases rest with
    | nil => rfl
    | cons m rest => cases m <;> rfl
  fun_induction place callId first calls ms with
  | case1 => exact absurd rfl hms
  | case2 first calls chunk rest ih =>
    rw [List.map_cons, List.map_cons, pieces_cons _ _ (hempty false calls rest).symm, hempty]
    cases rest with
    | nil => rfl
    | cons m rest => rw [ih (List.cons_ne_nil m rest)]; rfl
  | case3 first calls toolName arguments size rest ih =>
    rw [List.map_cons, List.map_cons, pieces_cons _ _ (hempty false (calls + 1) rest).symm, hempty]
    cases rest with
    | nil => rfl
    | cons m rest => rw [ih (List.cons_ne_nil m rest)]; rfl

theorem write_ne_nil (d : Stream.Gemini.Document) : d.toJson.write ≠ [] := List.cons_ne_nil _ _

theorem parts_lines (us : List OutputUnit) :
    ((us.map fun u => (document u).toJson.write).filter (· ≠ [])).mapM (fun line =>
      (Json.Document.ofSource? (line.map some)).bind parts?) =
      some (us.map fun u => [received (document u).part]) := by
  induction us with
  | nil => rfl
  | cons u us ih =>
    have hdoc : Json.Document.ofSource? ((document u).toJson.write.map some) = some (document u).toJson.document :=
      Json.Document.ofSource?_of_spells (document u).toJson.spells_write
    rw [List.map_cons, List.filter_cons_of_pos (by simpa using write_ne_nil (document u)), List.mapM_cons, hdoc,
      Option.bind_some, parts?_document, ih]
    rfl

/-- How the arguments of a call come to the client: as the document of the object that they make. -/
def structured (raw : String) : Json.Document := (Stream.structuredArguments raw).document

theorem foldl_parts (us : List OutputUnit) (t : Transcript Json.Document) :
    (us.map fun u => [received (document u).part]).flatten.foldl tellPart t =
      us.foldl (Transcript.tellUnit structured) t := by
  induction us generalizing t with
  | nil => rfl
  | cons u us ih =>
    rw [List.map_cons, List.flatten_cons, List.foldl_append, ih]
    cases u <;> rfl

/-- A client gets of the frames of a response what its commands tell. -/
theorem transcript?_frames (x : Context) (s : State) {cs : List Script.Command} (hcs : cs ≠ []) :
    transcript? (String.join (Framer.framesOf s (units x cs))) =
      some ((cs.map Script.Command.directive).foldl (Transcript.tell structured) .empty) := by
  rw [transcript?, framesOf_eq, units, pieces_frames x.callId true 0 (Stream.flatMap_matter_ne_nil hcs)]
  simp only [parts_lines, Option.bind_eq_bind, Option.bind_some, foldl_parts]
  exact congrArg some (Transcript.foldl_units structured x .empty cs)

end ScriptedModel.Client.Gemini
