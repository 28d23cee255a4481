/-
Arguments that a client gives back. It gets the object that the arguments of a call make, from a
look-up or from a Gemini document, and writes it compactly as the arguments of another call.

Main statement: what is given back makes the same object again, and is not wrapped once more, unless
there is a double in it. Such a call is kept and streamed like the first one.
-/
import ScriptedModel.Proofs.Http.Recall
import ScriptedModel.Proofs.Json.Reading

namespace ScriptedModel.Stream

open Json (Value)

/-! ## The object of arguments -/

theorem structuredArguments_of_ofText? {raw : String} {ms : List (String × Value)}
    (h : Value.ofText? raw = some (.object ms)) : structuredArguments raw = .object ms := by
  rw [structuredArguments, h]

theorem structuredArguments_of_forall_ne {raw : String} (h : ∀ ms, Value.ofText? raw ≠ some (.object ms)) :
    structuredArguments raw = .object [("value", .string raw)] := by
  unfold structuredArguments
  split
  · rename_i ms hms
    exact absurd hms (h ms)
  · rfl

/-- What wraps a text can be read, whatever the text is. -/
theorem legible_wrapped (raw : String) : (Value.object [("value", .string raw)]).Legible Json.Document.nestingLimit :=
  .object (List.pairwise_singleton _ _) fun m hm => by
    rw [List.mem_singleton.1 hm]
    exact .string raw

theorem exact_wrapped (raw : String) : (Value.object [("value", .string raw)]).Exact :=
  .object fun m hm => by
    rw [List.mem_singleton.1 hm]
    exact .string raw

theorem legible_structuredArguments {raw : String} (h : (structuredArguments raw).Exact) :
    (structuredArguments raw).Legible Json.Document.nestingLimit := by
  by_cases hobject : ∃ ms, Value.ofText? raw = some (.object ms)
  · obtain ⟨ms, hms⟩ := hobject
    rw [structuredArguments_of_ofText? hms] at h ⊢
    obtain ⟨d, -, hd⟩ := Option.bind_eq_some_iff.1 hms
    exact Json.Document.legible_of_value? _ d hd h
  · rw [structuredArguments_of_forall_ne (not_exists.1 hobject)]
    exact legible_wrapped raw

theorem exists_structuredArguments (raw : String) : ∃ ms, structuredArguments raw = .object ms := by
  unfold structuredArguments
  split
  · exact ⟨_, rfl⟩
  · exact ⟨_, rfl⟩

/-- The object of arguments, written compactly, makes itself. -/
theorem structuredArguments_compact {raw : String} (h : (structuredArguments raw).Exact) :
    structuredArguments (structuredArguments raw).compact = structuredArguments raw := by
  have hread := Value.ofText?_compact (legible_structuredArguments h)
  obtain ⟨ms, hms⟩ := exists_structuredArguments raw
  rw [hms] at hread ⊢
  exact structuredArguments_of_ofText? hread

end ScriptedModel.Stream

namespace ScriptedModel.Client

open Json (Value)
open Http (State Response Tells)
open ScriptedModel.Stream (Provider StoredResponse ToolUnit structuredArguments)

/-! ## What a client gives back -/

/-- The compact text of the value that a document stands for. -/
def rewritten? (d : Json.Document) : Option String := (d.value? Json.Document.nestingLimit).map Value.compact

/-- The object of arguments in the reply to a look-up, written anew. -/
def lookedUp? (body : String) : Option String := do
  let d ← Json.Document.ofSource? (Json.sourceOf body)
  rewritten? (← d.member? "parsedArguments")

/-- The object of arguments in a Gemini document that makes a call, written anew. -/
def called? (frame : String) : Option String := do
  match ← Gemini.parts? (← Json.Document.ofSource? (Json.sourceOf frame)) with
  | [.call _ arguments] => rewritten? arguments
  | _ => none

/-- Arguments whose object is the one that they spell, or has them as its only value. Unless there is a
double in it, it makes itself again, and so does what a client gives back of it. -/
structure Settles (raw : String) : Prop where
  isObject : ∃ ms, structuredArguments raw = .object ms
  spelled : ∀ ms, Value.ofText? raw = some (.object ms) → structuredArguments raw = .object ms
  wrapped : (∀ ms, Value.ofText? raw ≠ some (.object ms)) →
    structuredArguments raw = .object [("value", .string raw)]
  rewritten : (structuredArguments raw).Exact →
    structuredArguments (structuredArguments raw).compact = structuredArguments raw
  wrappedOnce : (∀ ms, Value.ofText? raw ≠ some (.object ms)) →
    structuredArguments (structuredArguments raw).compact = .object [("value", .string raw)]
  lookedUp : (structuredArguments raw).Exact → ∀ (s : State) (r : StoredResponse) (a : State × Response),
    Tells s r a → r.arguments = raw → ∃ text, lookedUp? a.2.body = some text ∧
      ∀ (callId toolName : String) (p : Provider) (createdAt : String),
        (StoredResponse.ofCall callId toolName text p createdAt).parsedArguments = structuredArguments raw
  called : (structuredArguments raw).Exact → ∀ u : ToolUnit, u.arguments = raw →
    ∃ text, called? (Stream.Gemini.toolDocument u).frame = some text ∧
      Stream.Gemini.toolDocument { u with arguments := text } = Stream.Gemini.toolDocument u

theorem rewritten?_structuredArguments {raw : String} (h : (structuredArguments raw).Exact) :
    rewritten? (structuredArguments raw).document = some (structuredArguments raw).compact := by
  rw [rewritten?, (Stream.legible_structuredArguments h).value?_document]
  rfl

theorem lookedUp?_of_tells {s : State} {r : StoredResponse} {a : State × Response} (htells : Tells s r a)
    (h : (structuredArguments r.arguments).Exact) :
    lookedUp? a.2.body = some (structuredArguments r.arguments).compact := by
  have hread := Json.Document.ofSource?_of_spells ((htells.body _).2 rfl)
  rw [lookedUp?, Json.sourceOf, hread]
  simp only [Option.bind_eq_bind, Option.bind_some, Json.Document.member?_document]
  exact rewritten?_structuredArguments h

theorem called?_toolDocument {u : ToolUnit} (h : (structuredArguments u.arguments).Exact) :
    called? (Stream.Gemini.toolDocument u).frame = some (structuredArguments u.arguments).compact := by
  have hread : Json.Document.ofSource? (Json.sourceOf (Stream.Gemini.toolDocument u).frame) =
      some (Stream.Gemini.toolDocument u).toJson.document := Message.ofSource?_frame _
  rw [called?, hread]
  simp only [Option.bind_eq_bind, Option.bind_some, Gemini.parts?_document]
  exact rewritten?_structuredArguments h

/-- Whatever the arguments of a call are, giving back the object that they make changes nothing. -/
theorem arguments_settle (raw : String) : Settles raw where
  isObject := Stream.exists_structuredArguments raw
  spelled := fun ms => Stream.structuredArguments_of_ofText?
  wrapped := Stream.structuredArguments_of_forall_ne
  rewritten := Stream.structuredArguments_compact
  wrappedOnce := by
    intro hnone
    have hwrapped := Stream.structuredArguments_of_forall_ne hnone
    have hexact : (structuredArguments raw).Exact := hwrapped ▸ Stream.exact_wrapped raw
    exact (Stream.structuredArguments_compact hexact).trans hwrapped
  lookedUp := by
    rintro hexact s r a htells rfl
    exact ⟨_, lookedUp?_of_tells htells hexact, fun _ _ _ _ => Stream.structuredArguments_compact hexact⟩
  called := by
    rintro hexact u rfl
    refine ⟨_, called?_toolDocument hexact, ?_⟩
    unfold Stream.Gemini.toolDocument
    rw [Stream.structuredArguments_compact hexact]

/-- Names are sorted, and the last of two values of one name is kept. -/
example : (structuredArguments "\x7b\"b\": 1, \"a\": [\"\\u00e9\"], \"b\": -2\x7d").compact =
    "\x7b\"a\":[\"é\"],\"b\":-2\x7d" := by
  decide +kernel

end ScriptedModel.Client
