/-
Server-sent events as their readers see them: a text is cut into lines at carriage returns and line
feeds, a line names a field and its value, and an empty line dispatches the event that the fields
before it make, if they have given it data.

Main statement: frames whose names and data are each one line are read as one event each.
-/
import ScriptedModel.Proofs.Json.Writing
import ScriptedModel.Text.Split

namespace ScriptedModel.EventStream

/-! ## Reading -/

/-- An event that is dispatched. -/
structure Event where
  name : String
  data : String
  deriving DecidableEq, Repr

/-- Whether a character ends a line. -/
def isLineEnd (c : Char) : Bool := c = '\r' || c = '\n'

/-- The lines of a text; what stands after the last end of a line is no line. -/
def lines : List Char → List (List Char)
  | [] => []
  | '\r' :: '\n' :: cs => [] :: lines cs
  | c :: cs =>
    if isLineEnd c then [] :: lines cs
    else match lines cs with
      | [] => []
      | line :: rest => (c :: line) :: rest

/-- A text without the blank that it may begin with. -/
def withoutBlank : List Char → List Char
  | ' ' :: cs => cs
  | cs => cs

/-- The field that a line names, and its value; a line that begins with a colon names none. -/
def field (line : List Char) : List Char × List Char :=
  match Split.atFirst? ':' line with
  | some (name, value) => (name, withoutBlank value)
  | none => (line, [])

/-- What the fields of the event under way have given. -/
structure Pending where
  name : List Char
  data : List Char
  deriving DecidableEq, Repr

namespace Pending

/-- The event before its first field. -/
def none : Pending := ⟨[], []⟩

/-- The event after a field; each field of data adds a line. -/
def add (p : Pending) (line : List Char) : Pending :=
  let (name, value) := field line
  if name = ['e', 'v', 'e', 'n', 't'] then { p with name := value }
  else if name = ['d', 'a', 't', 'a'] then { p with data := p.data ++ (value ++ ['\n']) }
  else p

/-- The event that an empty line dispatches, if it has data. -/
def event? (p : Pending) : Option Event :=
  if p.data = [] then Option.none
  else some ⟨if p.name = [] then "message" else String.ofList p.name, String.ofList p.data.dropLast⟩

end Pending

/-- The events that lines dispatch after the fields of one under way. -/
def events : Pending → List (List Char) → List Event
  | _, [] => []
  | p, [] :: rest => p.event?.toList ++ events .none rest
  | p, (c :: cs) :: rest => events (p.add (c :: cs)) rest

/-- The events of a text. -/
def read (text : String) : List Event := events .none (lines text.toList)

/-! ## Frames -/

/-- Whether a text is one line. -/
def IsLine (cs : List Char) : Prop := ∀ c ∈ cs, isLineEnd c = false

instance (cs : List Char) : Decidable (IsLine cs) := List.decidableBAll (fun c : Char => isLineEnd c = false) cs

theorem isLine_nil : IsLine [] := fun _ h => nomatch h

theorem IsLine.append {cs ds : List Char} (hc : IsLine cs) (hd : IsLine ds) : IsLine (cs ++ ds) :=
  List.forall_mem_append.2 ⟨hc, hd⟩

theorem isLine_compact (v : Json.Value) : IsLine v.compact.toList := by
  intro c hc
  rw [Json.Value.compact, String.toList_ofList] at hc
  have hcontrol := v.noControls_write c hc
  -- Both ends of a line are control characters.
  have hne : c ≠ '\r' ∧ c ≠ '\n' := by
    constructor
    · rintro rfl
      exact absurd hcontrol (by decide)
    · rintro rfl
      exact absurd hcontrol (by decide)
  simp only [isLineEnd, hne.1, hne.2, decide_false, Bool.or_self]

theorem lines_append {line : List Char} (h : IsLine line) (cs : List Char) :
    lines (line ++ '\n' :: cs) = line :: lines cs := by
  induction line with
  | nil =>
    rw [List.nil_append, lines]
    · rfl
    · intro cs' hc
      cases hc
  | cons c line ih =>
    have hc : isLineEnd c = false := h c List.mem_cons_self
    have hline : IsLine line := fun d hd => h d (List.mem_cons_of_mem c hd)
    rw [List.cons_append, lines, if_neg (by rw [hc]; exact Bool.false_ne_true), ih hline]
    rintro cs' rfl
    cases hc

theorem lines_data {data : List Char} (h : IsLine data) (cs : List Char) :
    lines ("data: ".toList ++ (data ++ '\n' :: '\n' :: cs)) = ("data: ".toList ++ data) :: [] :: lines cs := by
  have hline : IsLine ("data: ".toList ++ data) := .append (by decide) h
  rw [← List.append_assoc, lines_append hline]
  exact congrArg _ (lines_append isLine_nil cs)

theorem events_data (p : Pending) (hp : p.data = []) (data : List Char) (rest : List (List Char)) :
    events p (("data: ".toList ++ data) :: [] :: rest) =
      ⟨if p.name = [] then "message" else String.ofList p.name, String.ofList data⟩ :: events .none rest := by
  have hadd : p.add ("data: ".toList ++ data) = ⟨p.name, data ++ ['\n']⟩ := by
    show { p with data := p.data ++ (data ++ ['\n']) } = _
    rw [hp]
    rfl
  have hevent : (⟨p.name, data ++ ['\n']⟩ : Pending).event? =
      some ⟨if p.name = [] then "message" else String.ofList p.name, String.ofList data⟩ := by
    rw [Pending.event?, if_neg (List.append_ne_nil_of_right_ne_nil _ (List.cons_ne_nil _ _)), List.dropLast_concat]
  show events (p.add ("data: ".toList ++ data)) ([] :: rest) = _
  rw [hadd, events, hevent]
  rfl

/-- A frame that only has data is one event, which is a message. -/
theorem events_message {data : String} (h : IsLine data.toList) (cs : List Char) :
    events .none (lines (("data: " ++ data ++ "\n\n").toList ++ cs)) =
      ⟨"message", data⟩ :: events .none (lines cs) := by
  have htext : ("data: " ++ data ++ "\n\n").toList ++ cs =
      "data: ".toList ++ (data.toList ++ '\n' :: '\n' :: cs) := by
    simp only [String.toList_append, List.append_assoc]
    rfl
  rw [htext, lines_data h, events_data .none rfl, String.ofList_toList]
  rfl

theorem events_named {name data : String} (hname : IsLine name.toList) (hne : name ≠ "") (h : IsLine data.toList)
    (cs : List Char) :
    events .none (lines (("event: " ++ name ++ "\ndata: " ++ data ++ "\n\n").toList ++ cs)) =
      ⟨name, data⟩ :: events .none (lines cs) := by
  have htext : ("event: " ++ name ++ "\ndata: " ++ data ++ "\n\n").toList ++ cs =
      ("event: ".toList ++ name.toList) ++ '\n' :: ("data: ".toList ++ (data.toList ++ '\n' :: '\n' :: cs)) := by
    simp only [String.toList_append, List.append_assoc]
    rfl
  have hline : IsLine ("event: ".toList ++ name.toList) := .append (by decide) hname
  rw [htext, lines_append hline, lines_data h]
  show events ⟨name.toList, []⟩ (("data: ".toList ++ data.toList) :: [] :: lines cs) = _
  rw [events_data _ rfl, if_neg (fun h => hne (String.toList_eq_nil_iff.1 h)), String.ofList_toList,
    String.ofList_toList]

/-- Frames are read as one event each, if each frame is, whatever comes after it. -/
theorem read_join {α : Type} (frame : α → String) (event : α → Event) (xs : List α)
    (h : ∀ x ∈ xs, ∀ cs, events .none (lines ((frame x).toList ++ cs)) = event x :: events .none (lines cs)) :
    read (String.join (xs.map frame)) = xs.map event := by
  rw [read, String.toList_join]
  induction xs with
  | nil => rfl
  | cons x xs ih =>
    rw [List.map_cons, List.flatMap_cons, h x List.mem_cons_self, ih fun y hy => h y (List.mem_cons_of_mem x hy)]
    rfl

end ScriptedModel.EventStream
