/-
The value that a JSON document stands for. Strings stand for texts, whatever letters spell them, and
numbers that are written as integers for these integers; items and members keep their order.

Main statement: of all documents the compact text of a value spells one only, and that one stands for
the value. So every string of a value is read from its text as it was, character for character.
-/
import ScriptedModel.Proofs.Json.Writing

namespace ScriptedModel.Json

/-- What the text of a number stands for; a double is written with its shortest digits. -/
inductive NumberText.Denotes : NumberText → Number → Prop
  | integer (negative : Bool) (whole : List Char) :
    Denotes ⟨negative, whole, [], none⟩
      (.integer (if negative then -(Numeral.value 10 whole : Int) else Numeral.value 10 whole))
  | double (d : Double) : Denotes (Number.double d).text (.double d)

mutual

/-- What a document stands for. -/
inductive Denotes : Document → Value → Prop
  | null : Denotes .null .null
  | bool (b : Bool) : Denotes (.bool b) (.bool b)
  | number {t : NumberText} {n : Number} (h : t.Denotes n) : Denotes (.number t) (.number n)
  | string {ls : List Letter} {s : String} (h : Letter.string? ls = some s) : Denotes (.string ls) (.string s)
  | array {ds : List Document} {vs : List Value} (h : DenoteItems ds vs) : Denotes (.array ds) (.array vs)
  | object {ms : List (List Letter × Document)} {ns : List (String × Value)} (h : DenoteMembers ms ns) :
    Denotes (.object ms) (.object ns)

/-- What items stand for, each for one. -/
inductive DenoteItems : List Document → List Value → Prop
  | nil : DenoteItems [] []
  | cons {d : Document} {v : Value} {ds : List Document} {vs : List Value} (h : Denotes d v) (hs : DenoteItems ds vs) :
    DenoteItems (d :: ds) (v :: vs)

/-- What members stand for, each for one. -/
inductive DenoteMembers : List (List Letter × Document) → List (String × Value) → Prop
  | nil : DenoteMembers [] []
  | cons {ls : List Letter} {k : String} {d : Document} {v : Value} {ms : List (List Letter × Document)}
    {ns : List (String × Value)} (hname : Letter.string? ls = some k) (h : Denotes d v) (hs : DenoteMembers ms ns) :
    DenoteMembers ((ls, d) :: ms) ((k, v) :: ns)

end

theorem Number.denotes_text (n : Number) : n.text.Denotes n := by
  cases n with
  | double d => exact .double d
  | integer z =>
    have hvalue : (Numeral.value 10 (Numeral.digits 10 z.natAbs) : Int) = z.natAbs := by
      rw [Numeral.value_digits (by omega) (by omega)]
    have hz : z = if decide (z < 0) = true then -(Numeral.value 10 (Numeral.digits 10 z.natAbs) : Int)
        else Numeral.value 10 (Numeral.digits 10 z.natAbs) := by
      rw [hvalue]
      by_cases h : z < 0
      · rw [decide_eq_true h, if_pos rfl]
        omega
      · rw [decide_eq_false h, if_neg Bool.false_ne_true]
        omega
    have h := NumberText.Denotes.integer (decide (z < 0)) (Numeral.digits 10 z.natAbs)
    rw [← hz] at h
    exact h

mutual

theorem Value.denotes_document : ∀ v : Value, Denotes v.document v
  | .null => .null
  | .bool b => .bool b
  | .number n => .number n.denotes_text
  | .string s => .string (Letter.string?_ofText s)
  | .array vs => .array (denoteItems_documents vs)
  | .object ms => .object (denoteMembers_documents ms)

theorem denoteItems_documents : ∀ vs : List Value, DenoteItems (itemDocuments vs) vs
  | [] => .nil
  | v :: vs => .cons v.denotes_document (denoteItems_documents vs)

theorem denoteMembers_documents : ∀ ms : List (String × Value), DenoteMembers (memberDocuments ms) ms
  | [] => .nil
  | (k, v) :: ms => .cons (Letter.string?_ofText k) v.denotes_document (denoteMembers_documents ms)

end

/-- The text of a value spells the document of the value and no other. -/
theorem Value.spells_compact_iff (v : Value) (d : Document) : Spells d v.compact.toList ↔ d = v.document := by
  rw [Value.compact, String.toList_ofList]
  constructor
  · intro h
    have hread := Document.ofSource?_of_spells h
    rw [Document.ofSource?_of_spells v.spells_write] at hread
    exact (Option.some.inj hread).symm
  · rintro rfl
    exact v.spells_write

end ScriptedModel.Json
