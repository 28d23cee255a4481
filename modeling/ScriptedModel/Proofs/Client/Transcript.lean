/-
Transcripts: what a client makes of a reply. A transcript is the text before the first call, and each
call with the text between it and the next.

Main statement: the units of a response tell the same transcript as the commands that they come from,
however its texts are cut.
-/
import ScriptedModel.Proofs.Stream.Units

namespace ScriptedModel.Client

open Script (Command Directive)
open ScriptedModel.Stream (Context Matter OutputUnit matter place units)

/-- What a reply said and called, up to a moment. -/
inductive Transcript (α : Type)
  | opening (said : String)
  | calling (earlier : Transcript α) (toolName : String) (arguments : α) (said : String)
  deriving DecidableEq, Repr

/-- What directives say before, between and after their calls. -/
def sayings : List Directive → List String
  | [] => [""]
  | .say content :: ds => (sayings ds).modifyHead (content ++ ·)
  | .toolCall _ _ :: ds => "" :: sayings ds

/-- The call that a directive makes; how its arguments come to the client depends on the format. -/
def call? {α : Type} (read : String → α) : Directive → Option (String × α)
  | .say _ => none
  | .toolCall toolName arguments => some (toolName, read arguments)

namespace Transcript

variable {α : Type}

/-- The transcript of a reply that has not begun. -/
def empty : Transcript α := .opening ""

/-- More text after what a transcript ends with. -/
def say (added : String) : Transcript α → Transcript α
  | .opening said => .opening (said ++ added)
  | .calling earlier toolName arguments said => .calling earlier toolName arguments (said ++ added)

/-- A call after what a transcript ends with. -/
def call (toolName : String) (arguments : α) (t : Transcript α) : Transcript α := .calling t toolName arguments ""

/-- The number of calls. -/
def count : Transcript α → Nat
  | .opening _ => 0
  | .calling earlier _ _ _ => earlier.count + 1

/-- The text after the last call. -/
def said : Transcript α → String
  | .opening said => said
  | .calling _ _ _ said => said

/-- The texts before, between and after the calls. -/
def texts : Transcript α → List String
  | .opening said => [said]
  | .calling earlier _ _ said => earlier.texts ++ [said]

/-- The calls. -/
def calls : Transcript α → List (String × α)
  | .opening _ => []
  | .calling earlier toolName arguments _ => earlier.calls ++ [(toolName, arguments)]

/-- A transcript whose arguments are changed. -/
def map {β : Type} (f : α → β) : Transcript α → Transcript β
  | .opening said => .opening said
  | .calling earlier toolName arguments said => .calling (earlier.map f) toolName (f arguments) said

/-- Adds what a directive puts out. -/
def tell (read : String → α) (t : Transcript α) : Directive → Transcript α
  | .say content => t.say content
  | .toolCall toolName arguments => t.call toolName (read arguments)

/-- Adds what a unit puts out. -/
def tellUnit (read : String → α) (t : Transcript α) : OutputUnit → Transcript α
  | .text u => t.say u.text
  | .tool u => t.call u.toolName (read u.arguments)

/-- Adds matter. -/
def tellMatter (read : String → α) (t : Transcript α) : Matter → Transcript α
  | .text chunk => t.say chunk
  | .tool toolName arguments _ => t.call toolName (read arguments)

/-! ## Adding text -/

@[simp]
theorem say_empty (t : Transcript α) : t.say "" = t := by
  cases t <;> simp [say]

@[simp]
theorem say_say (t : Transcript α) (first second : String) : (t.say first).say second = t.say (first ++ second) := by
  cases t <;> simp [say, String.append_assoc]

@[simp]
theorem count_say (t : Transcript α) (added : String) : (t.say added).count = t.count := by
  cases t <;> rfl

/-- Text that comes in pieces is the text. -/
theorem foldl_say (t : Transcript α) (chunks : List String) :
    chunks.foldl (fun t chunk => t.say chunk) t = t.say (String.join chunks) := by
  induction chunks generalizing t with
  | nil => exact (say_empty t).symm
  | cons chunk chunks ih => rw [List.foldl_cons, ih, say_say, String.join_cons]

/-! ## What units tell -/

theorem foldl_matter (read : String → α) (t : Transcript α) (c : Command) :
    (matter c).foldl (tellMatter read) t = t.tell read c.directive := by
  unfold matter
  cases c.directive with
  | say content =>
    rw [List.foldl_map]
    show (Stream.chunkText content _).foldl (fun t chunk => t.say chunk) t = t.say content
    rw [foldl_say, Stream.join_chunkText]
  | toolCall toolName arguments => rfl

/-- The units of a response tell what its commands tell. -/
theorem foldl_units (read : String → α) (x : Context) (t : Transcript α) (cs : List Command) :
    (units x cs).foldl (tellUnit read) t = (cs.map Command.directive).foldl (tell read) t := by
  have hunit : tellUnit read = fun t u => tellMatter read t u.matter := by
    funext t u
    cases u <;> rfl
  rw [hunit, ← List.foldl_map, units, Stream.matter_place]
  induction cs generalizing t with
  | nil => rfl
  | cons c cs ih =>
    rw [List.flatMap_cons, List.foldl_append, foldl_matter, ih]
    rfl

/-! ## What transcripts say -/

theorem map_say {β : Type} (f : α → β) (t : Transcript α) (added : String) :
    (t.say added).map f = (t.map f).say added := by
  cases t <;> rfl

theorem map_foldl_tell {β : Type} (f : α → β) (read : String → α) (ds : List Directive) (t : Transcript α) :
    (ds.foldl (tell read) t).map f = ds.foldl (tell fun raw => f (read raw)) (t.map f) := by
  induction ds generalizing t with
  | nil => rfl
  | cons d ds ih =>
    rw [List.foldl_cons, List.foldl_cons, ih]
    cases d with
    | say content => exact congrArg (List.foldl _ · ds) (map_say f t content)
    | toolCall toolName arguments => rfl

theorem modifyHead_empty_append (texts : List String) : texts.modifyHead ("" ++ ·) = texts := by
  cases texts with
  | nil => rfl
  | cons text rest => rw [List.modifyHead_cons, String.empty_append]

/-- What directives say adds to the text after the last call, and each of their calls begins another. -/
theorem texts_foldl_tell (read : String → α) (ds : List Directive) (t : Transcript α) :
    (ds.foldl (tell read) t).texts = t.texts.dropLast ++ (sayings ds).modifyHead (t.said ++ ·) := by
  -- The text after the last call is the last of all texts.
  have hlast : ∀ t : Transcript α, t.texts = t.texts.dropLast ++ [t.said] := by
    intro t
    cases t with
    | opening said => rfl
    | calling earlier toolName arguments said =>
      show earlier.texts ++ [said] = (earlier.texts ++ [said]).dropLast ++ [said]
      rw [List.dropLast_concat]
  induction ds generalizing t with
  | nil =>
    show t.texts = t.texts.dropLast ++ [t.said ++ ""]
    rw [String.append_empty]
    exact hlast t
  | cons d ds ih =>
    rw [List.foldl_cons, ih]
    cases d with
    | say content =>
      have hsaid : (t.say content).said = t.said ++ content ∧ (t.say content).texts.dropLast = t.texts.dropLast := by
        cases t with
        | opening said => exact ⟨rfl, rfl⟩
        | calling earlier toolName arguments said =>
          show _ ∧ (earlier.texts ++ [said ++ content]).dropLast = (earlier.texts ++ [said]).dropLast
          rw [List.dropLast_concat, List.dropLast_concat]
          exact ⟨rfl, rfl⟩
      show (t.say content).texts.dropLast ++ (sayings ds).modifyHead ((t.say content).said ++ ·) =
        t.texts.dropLast ++ ((sayings ds).modifyHead (content ++ ·)).modifyHead (t.said ++ ·)
      rw [hsaid.1, hsaid.2, List.modifyHead_modifyHead]
      congr 2
      funext text
      exact String.append_assoc
    | toolCall toolName arguments =>
      show (t.texts ++ [""]).dropLast ++ (sayings ds).modifyHead ("" ++ ·) =
        t.texts.dropLast ++ (t.said ++ "") :: sayings ds
      rw [List.dropLast_concat, modifyHead_empty_append, String.append_empty, List.append_cons, ← hlast]

theorem texts_foldl_tell_empty (read : String → α) (ds : List Directive) :
    (ds.foldl (tell read) .empty).texts = sayings ds := by
  rw [texts_foldl_tell]
  exact modifyHead_empty_append (sayings ds)

theorem calls_foldl_tell (read : String → α) (ds : List Directive) (t : Transcript α) :
    (ds.foldl (tell read) t).calls = t.calls ++ ds.filterMap (call? read) := by
  induction ds generalizing t with
  | nil => exact (List.append_nil t.calls).symm
  | cons d ds ih =>
    rw [List.foldl_cons, ih]
    cases d with
    | say content =>
      have hcalls : (t.say content).calls = t.calls := by
        cases t <;> rfl
      show (t.say content).calls ++ _ = _
      rw [hcalls]
      rfl
    | toolCall toolName arguments => exact List.append_assoc t.calls [(toolName, read arguments)] _

end Transcript

end ScriptedModel.Client
