/-
Values that their own text gives back. What is read from a text is nested within the limit, its
integers have 64 bits, and the members of its objects are sorted, no two under one name; a double
alone may be read as another one from the digits that it is written with.

Main statement: a value without doubles that was read from a text is read again from its compact text.
-/
import ScriptedModel.Proofs.Json.Writing

namespace ScriptedModel.Json

/-! ## Integers -/

/-- The integers that are read as such: those of 64 bits, with a sign or without. -/
def IsWord (z : Int) : Prop := -((UInt64.size / 2 : Nat) : Int) ≤ z ∧ z < (UInt64.size : Nat)

instance (z : Int) : Decidable (IsWord z) := inferInstanceAs (Decidable (_ ∧ _))

namespace NumberText

theorem le_valueFrom (n : Nat) (ds : List Char) : n ≤ Numeral.valueFrom 10 n ds := by
  induction ds generalizing n with
  | nil => exact Nat.le_refl n
  | cons d ds ih =>
    have hstep : n ≤ n * 10 + Numeral.digitValue d := by omega
    exact Nat.le_trans hstep (ih _)

/-- No digit is dropped from a number within the ceiling. -/
theorem appendDigits_of_le {n : Nat} {ds : List Char} (h : Numeral.valueFrom 10 n ds ≤ significandCeiling) :
    appendDigits n ds = (Numeral.valueFrom 10 n ds, []) := by
  induction ds generalizing n with
  | nil => rfl
  | cons d ds ih =>
    have hstep : n * 10 + Numeral.digitValue d ≤ significandCeiling := Nat.le_trans (le_valueFrom _ ds) h
    rw [appendDigits, if_neg (Nat.not_lt.2 hstep)]
    exact ih h

theorem appendDigits_le {n : Nat} (h : n ≤ significandCeiling) (ds : List Char) :
    (appendDigits n ds).1 ≤ significandCeiling := by
  induction ds generalizing n with
  | nil => exact h
  | cons d ds ih =>
    rw [appendDigits]
    split
    · exact h
    · exact ih (by omega)

theorem isWord_of_number? {t : NumberText} {z : Int} (h : t.number? = some (.integer z)) : IsWord z := by
  have hle : (appendDigits 0 t.whole).1 ≤ significandCeiling := appendDigits_le (Nat.zero_le _) t.whole
  have hceiling : significandCeiling < UInt64.size := by decide
  rw [number?] at h
  simp only at h
  split at h
  · rename_i hinteger
    cases h
    obtain ⟨-, -, -, hsign⟩ := hinteger
    unfold IsWord
    cases hneg : t.negative with
    | true =>
      have := hsign hneg
      simp only [if_true]
      omega
    | false =>
      simp only [Bool.false_eq_true, if_false]
      omega
  · obtain ⟨d, -, hd⟩ := Option.map_eq_some_iff.1 h
    cases hd

theorem number?_integer {z : Int} (h : IsWord z) : (Number.integer z).text.number? = some (.integer z) := by
  have hvalue : Numeral.valueFrom 10 0 (Numeral.digits 10 z.natAbs) = z.natAbs :=
    Numeral.value_digits (by omega) (by omega) z.natAbs
  have hsize : UInt64.size = significandCeiling + 1 := by decide
  obtain ⟨hlow, hhigh⟩ := h
  have hdigits : appendDigits 0 (Numeral.digits 10 z.natAbs) = (z.natAbs, []) := by
    rw [appendDigits_of_le (by omega), hvalue]
  rw [number?, Number.text]
  simp only [hdigits, decide_eq_true_eq, true_and]
  rw [if_pos (by omega)]
  by_cases hz : z < 0
  · rw [if_pos hz]
    congr 2
    omega
  · rw [if_neg hz]
    congr 2
    omega

end NumberText

/-! ## Sorted members -/

/-- Members in the order of their names, none of which comes twice. -/
abbrev Sorted (ms : List (String × Value)) : Prop := ms.Pairwise fun m n => m.1 < n.1

theorem mem_of_mem_insertMember {name : String} {v : Value} {ms : List (String × Value)} {m : String × Value}
    (h : m ∈ insertMember name v ms) : m = (name, v) ∨ m ∈ ms := by
  fun_induction insertMember name v ms with
  | case1 => exact .inl (List.mem_singleton.1 h)
  | case2 n ms hlt => exact List.mem_cons.1 h
  | case3 n ms hlt heq => exact (List.mem_cons.1 h).imp_right (List.mem_cons_of_mem n)
  | case4 n ms hlt heq ih =>
    rcases List.mem_cons.1 h with rfl | h
    · exact .inr List.mem_cons_self
    · exact (ih h).imp_right (List.mem_cons_of_mem n)

theorem sorted_insertMember (name : String) (v : Value) {ms : List (String × Value)} (h : Sorted ms) :
    Sorted (insertMember name v ms) := by
  fun_induction insertMember name v ms with
  | case1 => exact List.pairwise_singleton _ _
  | case2 n ms hlt =>
    refine List.pairwise_cons.2 ⟨fun m hm => ?_, h⟩
    rcases List.mem_cons.1 hm with rfl | hm
    · exact hlt
    · exact String.lt_trans hlt ((List.pairwise_cons.1 h).1 m hm)
  | case3 n ms hlt heq =>
    subst heq
    exact List.pairwise_cons.2 (List.pairwise_cons.1 h)
  | case4 n ms hlt heq ih =>
    obtain ⟨hfirst, hrest⟩ := List.pairwise_cons.1 h
    refine List.pairwise_cons.2 ⟨fun m hm => ?_, ih hrest⟩
    rcases mem_of_mem_insertMember hm with rfl | hm
    -- Of two names neither of which comes first the two are one.
    · exact String.not_le.1 fun hle => heq (String.le_antisymm hle (String.not_lt.1 hlt))
    · exact hfirst m hm

theorem mem_of_mem_sortMembers {ms : List (String × Value)} {m : String × Value} (h : m ∈ sortMembers ms) :
    m ∈ ms := by
  have hfold : ∀ done, m ∈ ms.foldl (fun sorted n => insertMember n.1 n.2 sorted) done → m ∈ done ∨ m ∈ ms := by
    clear h
    induction ms with
    | nil => exact fun done h => .inl h
    | cons n ms ih =>
      intro done h
      rcases ih _ h with h | h
      · exact (mem_of_mem_insertMember h).elim (fun h => .inr (h ▸ List.mem_cons_self)) .inl
      · exact .inr (List.mem_cons_of_mem n h)
  exact (hfold [] h).resolve_left (List.not_mem_nil)

theorem sorted_sortMembers (ms : List (String × Value)) : Sorted (sortMembers ms) := by
  have hfold : ∀ done, Sorted done → Sorted (ms.foldl (fun sorted n => insertMember n.1 n.2 sorted) done) := by
    induction ms with
    | nil => exact fun done h => h
    | cons n ms ih => exact fun done h => ih _ (sorted_insertMember n.1 n.2 h)
  exact hfold [] List.Pairwise.nil

/-- A member that comes after all others is put at the end. -/
theorem insertMember_of_forall_lt {name : String} {v : Value} {ms : List (String × Value)}
    (h : ∀ m ∈ ms, m.1 < name) : insertMember name v ms = ms ++ [(name, v)] := by
  induction ms with
  | nil => rfl
  | cons m ms ih =>
    have hm : m.1 < name := h m List.mem_cons_self
    have hne : name ≠ m.1 := fun heq => String.lt_irrefl name (heq ▸ hm)
    have hge : ¬ name < m.1 := fun hlt => String.lt_irrefl name (String.lt_trans hlt hm)
    rw [insertMember, if_neg hge, if_neg hne, ih fun n hn => h n (List.mem_cons_of_mem m hn)]
    rfl

/-- Sorted members stay as they are. -/
theorem sortMembers_of_sorted {ms : List (String × Value)} (h : Sorted ms) : sortMembers ms = ms := by
  have hfold : ∀ done, Sorted (done ++ ms) →
      ms.foldl (fun sorted n => insertMember n.1 n.2 sorted) done = done ++ ms := by
    clear h
    induction ms with
    | nil => exact fun done _ => (List.append_nil done).symm
    | cons m ms ih =>
      intro done h
      have hlt : ∀ n ∈ done, n.1 < m.1 := fun n hn =>
        (List.pairwise_append.1 h).2.2 n hn m List.mem_cons_self
      rw [List.append_cons] at h ⊢
      rw [List.foldl_cons, insertMember_of_forall_lt hlt, ih _ h]
  exact hfold [] h

/-! ## Values -/

namespace Value

/-- A value without doubles. -/
inductive Exact : Value → Prop
  | null : Exact .null
  | bool (b : Bool) : Exact (.bool b)
  | integer (z : Int) : Exact (.number (.integer z))
  | string (s : String) : Exact (.string s)
  | array {vs : List Value} (h : ∀ v ∈ vs, Exact v) : Exact (.array vs)
  | object {ms : List (String × Value)} (h : ∀ m ∈ ms, Exact m.2) : Exact (.object ms)

/-- A value that reading can give: integers are words, members are sorted, and no more containers
than the limit allows stand inside each other. -/
inductive Legible : Nat → Value → Prop
  | null {limit : Nat} : Legible limit .null
  | bool {limit : Nat} (b : Bool) : Legible limit (.bool b)
  | integer {limit : Nat} {z : Int} (h : IsWord z) : Legible limit (.number (.integer z))
  | string {limit : Nat} (s : String) : Legible limit (.string s)
  | array {limit : Nat} {vs : List Value} (h : ∀ v ∈ vs, Legible limit v) : Legible (limit + 1) (.array vs)
  | object {limit : Nat} {ms : List (String × Value)} (hsorted : Sorted ms) (h : ∀ m ∈ ms, Legible limit m.2) :
    Legible (limit + 1) (.object ms)

end Value

namespace Document

mutual

/-- Whatever is read is legible, doubles apart. -/
theorem legible_of_value? : ∀ (limit : Nat) (d : Document) {v : Value}, value? limit d = some v → v.Exact →
    v.Legible limit
  | _, .null, _, h, _ => by
    cases h
    exact .null
  | _, .bool b, _, h, _ => by
    cases h
    exact .bool b
  | _, .number t, _, h, hexact => by
    obtain ⟨n, hn, rfl⟩ := Option.map_eq_some_iff.1 h
    cases hexact with
    | integer z => exact .integer (NumberText.isWord_of_number? hn)
  | _, .string ls, _, h, _ => by
    obtain ⟨s, -, rfl⟩ := Option.map_eq_some_iff.1 h
    exact .string s
  | 0, .array _, _, h, _ => nomatch h
  | limit + 1, .array ds, _, h, hexact => by
    obtain ⟨vs, hvs, rfl⟩ := Option.map_eq_some_iff.1 h
    cases hexact with
    | array hitems => exact .array fun v hv => legible_of_items? limit ds hvs v hv (hitems v hv)
  | 0, .object _, _, h, _ => nomatch h
  | limit + 1, .object ms, _, h, hexact => by
    obtain ⟨ns, hns, rfl⟩ := Option.map_eq_some_iff.1 h
    cases hexact with
    | object hmembers =>
      exact .object (sorted_sortMembers ns) fun n hn =>
        legible_of_members? limit ms hns n (mem_of_mem_sortMembers hn) (hmembers n hn)

theorem legible_of_items? : ∀ (limit : Nat) (ds : List Document) {vs : List Value}, items? limit ds = some vs →
    ∀ v ∈ vs, v.Exact → v.Legible limit
  | _, [], _, h, v, hv, _ => by
    cases h
    cases hv
  | limit, d :: ds, _, h, v, hv, hexact => by
    rw [items?] at h
    split at h
    · cases h
    · rename_i first hfirst
      obtain ⟨rest, hrest, rfl⟩ := Option.map_eq_some_iff.1 h
      rcases List.mem_cons.1 hv with rfl | hv
      · exact legible_of_value? limit d hfirst hexact
      · exact legible_of_items? limit ds hrest v hv hexact

theorem legible_of_members? : ∀ (limit : Nat) (ms : List (List Letter × Document)) {ns : List (String × Value)},
    members? limit ms = some ns → ∀ n ∈ ns, n.2.Exact → n.2.Legible limit
  | _, [], _, h, n, hn, _ => by
    cases h
    cases hn
  | limit, (ls, d) :: ms, _, h, n, hn, hexact => by
    rw [members?] at h
    split at h
    · rename_i name first hname hfirst
      obtain ⟨rest, hrest, rfl⟩ := Option.map_eq_some_iff.1 h
      rcases List.mem_cons.1 hn with rfl | hn
      · exact legible_of_value? limit d hfirst hexact
      · exact legible_of_members? limit ms hrest n hn hexact
    · cases h

end

theorem items?_itemDocuments {limit : Nat} {vs : List Value} (h : ∀ v ∈ vs, value? limit v.document = some v) :
    items? limit (itemDocuments vs) = some vs := by
  induction vs with
  | nil => rfl
  | cons v vs ih =>
    rw [itemDocuments, items?, h v List.mem_cons_self]
    simp only [ih fun u hu => h u (List.mem_cons_of_mem v hu)]
    rfl

theorem members?_memberDocuments {limit : Nat} {ms : List (String × Value)}
    (h : ∀ m ∈ ms, value? limit m.2.document = some m.2) : members? limit (memberDocuments ms) = some ms := by
  induction ms with
  | nil => rfl
  | cons m ms ih =>
    obtain ⟨name, v⟩ := m
    have hv : value? limit v.document = some v := h (name, v) List.mem_cons_self
    rw [memberDocuments, members?, Letter.string?_ofText, hv]
    simp only [ih fun n hn => h n (List.mem_cons_of_mem _ hn)]
    rfl

end Document

namespace Value

/-- A legible value is what its document stands for. -/
theorem Legible.value?_document {limit : Nat} {v : Value} (h : v.Legible limit) :
    v.document.value? limit = some v := by
  induction h with
  | null => rfl
  | bool b => rfl
  | integer hword =>
    show (NumberText.number? _).map Value.number = _
    rw [NumberText.number?_integer hword]
    rfl
  | string s =>
    show (Letter.string? (Letter.ofText s)).map Value.string = _
    rw [Letter.string?_ofText]
    rfl
  | @array limit vs _ ih =>
    show (Document.items? limit (itemDocuments vs)).map Value.array = _
    rw [Document.items?_itemDocuments ih]
    rfl
  | @object limit ms hsorted _ ih =>
    show (Document.members? limit (memberDocuments ms)).map Value.sorted = _
    rw [Document.members?_memberDocuments ih]
    show some (Value.object (sortMembers ms)) = _
    rw [sortMembers_of_sorted hsorted]

theorem ofText?_compact {v : Value} (h : v.Legible Document.nestingLimit) : ofText? v.compact = some v := by
  rw [ofText?, ofSource?_compact]
  exact h.value?_document

/-- A value without doubles that was read from a text is read again from its compact text. -/
theorem ofText?_compact_of_ofText? {text : String} {v : Value} (h : ofText? text = some v) (hexact : v.Exact) :
    ofText? v.compact = some v := by
  obtain ⟨d, -, hd⟩ := Option.bind_eq_some_iff.1 h
  exact ofText?_compact (Document.legible_of_value? _ d hd hexact)

end Value

end ScriptedModel.Json
