/-
What writing a value spells. The document of a value has the value's texts as its strings and the
digits of its numbers as they are written.

Main statements: the compact text of a value spells the document of the value, so it is read as
that; and it has no control characters.
-/
import ScriptedModel.Json.Record
import ScriptedModel.Json.Writer
import ScriptedModel.Proofs.Json.Spelling
import ScriptedModel.Proofs.Text.Numeral

namespace ScriptedModel.Json

/-! ## Strings -/

/-- The letter that a character is written as: some control characters are written as code units. -/
def Letter.ofChar (c : Char) : Letter :=
  if c.toNat < 0x20 ∧ c ∉ ['\x08', '\t', '\n', '\x0c', '\r'] then .unit c.toNat else .plain c

/-- The letters of a text. -/
def Letter.ofText (s : String) : List Letter := s.toList.map Letter.ofChar

namespace Letter

/-- A character by itself is read back, whatever letter it is written as. -/
theorem text?_ofChar (c : Char) (ls : List Letter) : text? (ofChar c :: ls) = (text? ls).map (c :: ·) := by
  unfold ofChar
  split
  case isFalse => rw [text?]
  case isTrue h =>
    -- A code unit below U+0020 is no half of a pair, so what follows it does not matter.
    have hhigh : isHigh c.toNat = false := by
      rw [isHigh, decide_eq_false_iff_not]
      omega
    have hlow : isLow c.toNat = false := by
      rw [isLow, decide_eq_false_iff_not]
      omega
    have hc : Char.ofNat c.toNat = c := Char.ofNat_toNat c
    rcases ls with _ | ⟨⟨d⟩ | ⟨v⟩ | _, ls⟩ <;> simp [text?, hhigh, hlow, hc]

theorem text?_map_ofChar (cs : List Char) : text? (cs.map ofChar) = some cs := by
  induction cs with
  | nil => rfl
  | cons c cs ih =>
    rw [List.map_cons, text?_ofChar, ih]
    rfl

@[simp]
theorem string?_ofText (s : String) : string? (ofText s) = some s := by
  rw [string?, ofText, text?_map_ofChar, Option.map_some, String.ofList_toList]

theorem string?_ofText_beq (s name : String) : (string? (ofText s) == some name) = (s == name) := by
  rw [string?_ofText]
  rfl

end Letter

theorem length_digits_sixteen {n : Nat} (h : n < 0x20) : (Numeral.digits 16 n).length ≤ 4 := by
  by_cases hn : n < 16
  · rw [Numeral.digits_of_lt hn, List.length_singleton]
    omega
  · rw [Numeral.digits_of_le (by omega) (by omega), Numeral.digits_of_lt (by omega)]
    show 2 ≤ 4
    omega

theorem spellsLetter_unit {n : Nat} (h : n < 0x20) :
    SpellsLetter (.unit n) ('\\' :: 'u' :: Numeral.padded 16 4 n) := by
  have hlength := Numeral.length_padded (length_digits_sixteen h)
  have hvalue : Numeral.value 16 (Numeral.padded 16 4 n) = n := Numeral.value_padded (by omega) (by omega) 4 n
  have hdigits : ∀ x ∈ Numeral.padded 16 4 n, Numeral.isDigit 16 x = true := fun x hx =>
    Numeral.isDigit_of_mem_padded (by omega) (by omega) hx
  obtain ⟨a, b, c, d, hpadded⟩ : ∃ a b c d, Numeral.padded 16 4 n = [a, b, c, d] := by
    match Numeral.padded 16 4 n, hlength with
    | [a, b, c, d], _ => exact ⟨a, b, c, d, rfl⟩
  rw [hpadded] at hvalue hdigits ⊢
  rw [← hvalue]
  exact .unit hdigits

theorem spellsLetter_escape (c : Char) : SpellsLetter (.ofChar c) (escape c) := by
  unfold escape
  by_cases h₁ : c = '"'
  · subst h₁; exact .escaped (e := '"') (by decide)
  by_cases h₂ : c = '\\'
  · subst h₂; exact .escaped (e := '\\') (by decide)
  by_cases h₃ : c = '\x08'
  · subst h₃; exact .escaped (e := 'b') (by decide)
  by_cases h₄ : c = '\t'
  · subst h₄; exact .escaped (e := 't') (by decide)
  by_cases h₅ : c = '\n'
  · subst h₅; exact .escaped (e := 'n') (by decide)
  by_cases h₆ : c = '\x0c'
  · subst h₆; exact .escaped (e := 'f') (by decide)
  by_cases h₇ : c = '\r'
  · subst h₇; exact .escaped (e := 'r') (by decide)
  rw [if_neg h₁, if_neg h₂, if_neg h₃, if_neg h₄, if_neg h₅, if_neg h₆, if_neg h₇]
  by_cases h₈ : c.toNat < 0x20
  · have hletter : Letter.ofChar c = .unit c.toNat := by
      rw [Letter.ofChar, if_pos ⟨h₈, by simp [h₃, h₄, h₅, h₆, h₇]⟩]
    rw [if_pos h₈, hletter]
    exact spellsLetter_unit h₈
  · have hletter : Letter.ofChar c = .plain c := by
      rw [Letter.ofChar, if_neg (fun h => h₈ h.1)]
    rw [if_neg h₈, hletter]
    exact .itself (Nat.le_of_not_lt h₈) h₁ h₂

theorem spellsLetters_escape (cs : List Char) : SpellsLetters (cs.map .ofChar) (cs.flatMap escape) := by
  induction cs with
  | nil => exact .nil
  | cons c cs ih => exact .cons (spellsLetter_escape c) ih

theorem spells_quote (s : String) : SpellsLetters (Letter.ofText s) (s.toList.flatMap escape) :=
  spellsLetters_escape s.toList

/-! ## Numbers -/

/-- The parts of a decimal as it is written. -/
def decimalText (negative : Bool) (s : Scientific) : NumberText :=
  if 0 ≤ s.exponent ∧ s.exponent < 16 then
    let places := s.exponent.toNat + 1
    let fraction := s.digits.drop places
    ⟨negative, s.digits.take places ++ List.replicate (places - s.digits.length) '0',
      if fraction = [] then ['0'] else fraction, none⟩
  else if -5 ≤ s.exponent ∧ s.exponent < 0 then
    ⟨negative, ['0'], List.replicate ((-s.exponent).toNat - 1) '0' ++ s.digits, none⟩
  else
    ⟨negative, s.digits.take 1, s.digits.drop 1, some (decide (s.exponent < 0), Numeral.digits 10 s.exponent.natAbs)⟩

/-- The parts of a number as it is written. -/
def Number.text : Number → NumberText
  | .integer z => ⟨decide (z < 0), Numeral.digits 10 z.natAbs, [], none⟩
  | .double d =>
    if d.magnitude.significand = 0 then ⟨d.negative, ['0'], ['0'], none⟩
    else decimalText d.negative d.magnitude.shortest

theorem areDigits_digits (n : Nat) : AreDigits (Numeral.digits 10 n) :=
  ⟨Numeral.digits_ne_nil 10 n, fun _ hd => Numeral.isDigit_of_mem_decimal hd⟩

theorem areDigits_zero : AreDigits ['0'] := ⟨List.cons_ne_nil _ _, fun d hd => by rw [List.mem_singleton.1 hd]; rfl⟩

theorem eq_zero_of_head?_digits {n : Nat} (h : (Numeral.digits 10 n).head? = some '0') :
    Numeral.digits 10 n = ['0'] := by
  by_cases hn : n = 0
  · rw [hn, Numeral.digits_of_lt (by omega)]
    rfl
  · exact absurd h (Numeral.head?_digits_ne_zero (by omega) (by omega) hn)

/-- Digits that do not begin with a zero. -/
structure Leading (ds : List Char) : Prop where
  digits : AreDigits ds
  head : ds.head? ≠ some '0'

theorem isDigit_of_mem_replicate {k : Nat} {d : Char} (h : d ∈ List.replicate k '0') : d.isDigit = true := by
  rw [List.eq_of_mem_replicate h]
  rfl

theorem Leading.spells_decimal {s : Scientific} (h : Leading s.digits) (negative : Bool) :
    SpellsNumber (decimalText negative s) ((if negative then ['-'] else []) ++ writeScientific s) := by
  obtain ⟨ds, exponent⟩ := s
  obtain ⟨⟨hne, hds⟩, hhead⟩ := h
  obtain ⟨d, rest, rfl⟩ := List.exists_cons_of_ne_nil hne
  have hd : d ≠ '0' := fun h => hhead (congrArg some h)
  have hrest : ∀ k, ∀ c ∈ rest.drop k, c.isDigit = true := fun k c hc =>
    hds c (List.mem_cons_of_mem d (List.mem_of_mem_drop hc))
  unfold decimalText writeScientific
  -- The digits are written around a point, after zeros behind a point, or before an exponent.
  by_cases hmany : 0 ≤ exponent ∧ exponent < 16
  · obtain ⟨k, rfl⟩ := Int.eq_ofNat_of_zero_le hmany.1
    simp only [if_pos hmany, Int.toNat_natCast, List.take_succ_cons, List.drop_succ_cons]
    -- Zeros fill the places before the point that the digits leave.
    have hwhole : AreDigits (d :: rest.take k ++ List.replicate (k + 1 - (d :: rest).length) '0') := by
      refine ⟨List.cons_ne_nil _ _, fun c hc => ?_⟩
      rcases List.mem_append.1 hc with hc | hc
      · rcases List.mem_cons.1 hc with rfl | hc
        · exact hds c List.mem_cons_self
        · exact hds c (List.mem_cons_of_mem d (List.mem_of_mem_take hc))
      · exact isDigit_of_mem_replicate hc
    have hfraction : AreDigits (if rest.drop k = [] then ['0'] else rest.drop k) := by
      split
      · exact areDigits_zero
      · exact ⟨by assumption, hrest k⟩
    have hspells := SpellsNumber.mk negative hwhole (fun h => absurd (Option.some.inj h) hd) (.some hfraction) .none
    rw [List.append_nil] at hspells
    exact hspells
  rw [if_neg hmany, if_neg hmany]
  by_cases hfew : -5 ≤ exponent ∧ exponent < 0
  · rw [if_pos hfew, if_pos hfew]
    have hfraction : AreDigits (List.replicate ((-exponent).toNat - 1) '0' ++ d :: rest) := by
      refine ⟨fun h => List.cons_ne_nil _ _ (List.append_eq_nil_iff.1 h).2, fun c hc => ?_⟩
      rcases List.mem_append.1 hc with hc | hc
      · exact isDigit_of_mem_replicate hc
      · exact hds c hc
    have hspells := SpellsNumber.mk negative areDigits_zero (fun _ => rfl) (.some hfraction) .none
    rw [List.append_nil] at hspells
    exact hspells
  · rw [if_neg hfew, if_neg hfew]
    have hwhole : AreDigits [d] := ⟨List.cons_ne_nil _ _, fun c hc => by
      rw [List.mem_singleton.1 hc]; exact hds d List.mem_cons_self⟩
    have hfraction : SpellsFraction rest (if rest = [] then [] else '.' :: rest) := by
      split
      · rename_i hnil
        rw [hnil]
        exact .none
      · exact .some ⟨by assumption, hrest 0⟩
    have hsign : SpellsSign (decide (exponent < 0)) [if 0 ≤ exponent then '+' else '-'] := by
      by_cases hpos : 0 ≤ exponent
      · rw [if_pos hpos, decide_eq_false (by omega)]
        exact .plus
      · rw [if_neg hpos, decide_eq_true (by omega)]
        exact .minus
    have hspells := SpellsNumber.mk negative hwhole (fun h => absurd (Option.some.inj h) hd) hfraction
      (.some (.inl rfl) hsign (areDigits_digits exponent.natAbs))
    simp only [List.take_succ_cons, List.take_zero, List.drop_succ_cons, List.drop_zero, List.append_assoc]
    exact hspells

/-! ### The shortest digits of a double -/

theorem covers_zero {x : Magnitude} (hx : x.significand ≠ 0) (p : Int) : x.covers 0 p = false := by
  -- The interval of a double other than zero begins above zero.
  have hlow : 0 < x.interval.1 := by
    unfold Magnitude.interval
    simp only
    split <;> omega
  have hcompare : Magnitude.compareDecimal 0 p x.interval.1 (x.exponent - 2) = .lt := by
    rw [Magnitude.compareDecimal, Nat.compare_eq_lt]
    simp only [Nat.zero_mul]
    exact Nat.mul_pos (Nat.mul_pos hlow (Nat.pow_pos (by omega))) (Nat.pow_pos (by omega))
  rw [Magnitude.covers]
  simp only [hcompare, Bool.false_and]

theorem neighbour?_ne_zero {x : Magnitude} (hx : x.significand ≠ 0) {c d : Nat} {p : Int}
    (h : x.neighbour? c p = some d) : d ≠ 0 := by
  have hcover : x.covers c p = true → c ≠ 0 := by
    rintro hc rfl
    rw [covers_zero hx] at hc
    cases hc
  unfold Magnitude.neighbour? at h
  split at h
  · cases h
  · rename_i hc _
    cases h
    exact hcover hc
  · cases h
    omega
  · rename_i hc _
    have := hcover hc
    split at h
    · cases h
      exact this
    · cases h
      omega
    · cases h
      split <;> omega

theorem search_ne_zero {x : Magnitude} (hx : x.significand ≠ 0) (e : Int) (tries n : Nat) :
    (x.search e tries n).1 ≠ 0 := by
  induction tries generalizing n with
  | zero => exact hx
  | succ tries ih =>
    rw [Magnitude.search]
    simp only
    split
    · rename_i h
      exact neighbour?_ne_zero hx h
    · exact ih (n + 1)

/-- A first digit that is not a zero stays when zeros at the end are left out. -/
theorem withoutTrailingZeros_cons {d : Char} (hd : d ≠ '0') (ds : List Char) :
    Magnitude.withoutTrailingZeros (d :: ds) = d :: Magnitude.withoutTrailingZeros ds := by
  have hlast : List.dropWhile (· = '0') [d] = [d] := by
    rw [List.dropWhile_cons_of_neg (by simpa using hd)]
  unfold Magnitude.withoutTrailingZeros
  rw [List.reverse_cons, List.dropWhile_append, hlast]
  split
  · rename_i h
    rw [List.isEmpty_iff.1 h]
    rfl
  · rw [List.reverse_append]
    rfl

theorem mem_of_mem_withoutTrailingZeros {ds : List Char} {c : Char} (h : c ∈ Magnitude.withoutTrailingZeros ds) :
    c ∈ ds :=
  List.mem_reverse.1 ((List.dropWhile_sublist _).mem (List.mem_reverse.1 h))

theorem leading_shortest {x : Magnitude} (hx : x.significand ≠ 0) : Leading x.shortest.digits := by
  unfold Magnitude.shortest
  simp only
  have hc := search_ne_zero hx (Magnitude.decimalExponent x.ratio.1 x.ratio.2) 17 1
  -- Of the search only that it does not end with zero is needed.
  generalize (x.search (Magnitude.decimalExponent x.ratio.1 x.ratio.2) 17 1).1 = c at hc ⊢
  have hdigits : ∀ d ∈ Numeral.digits 10 c, d.isDigit = true := fun _ hd => Numeral.isDigit_of_mem_decimal hd
  obtain ⟨k, hk, hk10, hhead⟩ : ∃ k, 0 < k ∧ k < 10 ∧ (Numeral.digits 10 c).head? = some (Nat.digitChar k) :=
    Numeral.head?_digits (by omega) (by omega) hc
  generalize Numeral.digits 10 c = ds at hhead hdigits ⊢
  obtain ⟨rest, rfl⟩ := List.head?_eq_some_iff.1 hhead
  have hne := Numeral.digitChar_ne_zero k (by omega) hk
  rw [withoutTrailingZeros_cons hne]
  refine ⟨⟨List.cons_ne_nil _ _, fun d hd => hdigits d ?_⟩, fun h => hne (Option.some.inj h)⟩
  rw [← withoutTrailingZeros_cons hne] at hd
  exact mem_of_mem_withoutTrailingZeros hd

/-! ### All numbers -/

theorem spells_number (n : Number) : SpellsNumber n.text n.write := by
  cases n with
  | integer z =>
    have hspells := SpellsNumber.mk (decide (z < 0)) (areDigits_digits z.natAbs) eq_zero_of_head?_digits .none .none
    rw [List.append_nil, List.append_nil] at hspells
    show SpellsNumber _ (writeInteger z)
    unfold writeInteger
    by_cases hz : z < 0
    · rw [decide_eq_true hz] at hspells
      rw [if_pos hz, Number.text, decide_eq_true hz]
      exact hspells
    · rw [decide_eq_false hz] at hspells
      rw [if_neg hz, Number.text, decide_eq_false hz]
      exact hspells
  | double d =>
    show SpellsNumber (Number.text (.double d)) (writeDouble d)
    unfold writeDouble Number.text
    by_cases hd : d.magnitude.significand = 0
    · simp only [if_pos hd]
      exact .mk d.negative areDigits_zero (fun _ => rfl) (.some areDigits_zero) .none
    · simp only [if_neg hd]
      exact (leading_shortest hd).spells_decimal d.negative

/-! ## Documents -/

mutual

/-- The document of a value. -/
def Value.document : Value → Document
  | .null => .null
  | .bool b => .bool b
  | .number n => .number n.text
  | .string s => .string (Letter.ofText s)
  | .array vs => .array (itemDocuments vs)
  | .object ms => .object (memberDocuments ms)

/-- The documents of the items of an array. -/
def itemDocuments : List Value → List Document
  | [] => []
  | v :: vs => v.document :: itemDocuments vs

/-- The members of the document of an object. -/
def memberDocuments : List (String × Value) → List (List Letter × Document)
  | [] => []
  | (k, v) :: ms => (Letter.ofText k, v.document) :: memberDocuments ms

end

theorem spellsName_quote (k : String) : SpellsName (Letter.ofText k) (quote k) :=
  .mk blanks_nil (spells_quote k) blanks_nil

mutual

/-- The compact text of a value spells its document. -/
theorem Value.spells_write : ∀ v : Value, Spells v.document v.write
  | .null => .null
  | .bool true => .true
  | .bool false => .false
  | .number n => .number (spells_number n)
  | .string s => .string (spells_quote s)
  | .array [] => .emptyArray blanks_nil
  | .array (v :: vs) => by
    obtain ⟨es, hes, hd⟩ := derives_items vs v.spells_write
    show Derives _ ('[' :: (v.write ++ writeItems vs))
    rw [hes]
    exact .array hd
  | .object [] => .emptyObject blanks_nil
  | .object ((k, v) :: ms) => by
    obtain ⟨es, hes, hd⟩ := derives_members ms (spellsName_quote k) v.spells_write
    show Derives _ ('{' :: (quote k ++ ':' :: (v.write ++ writeMembers ms)))
    rw [hes]
    exact .object hd

/-- The items after a first one, and the closing bracket. -/
theorem derives_items : ∀ (vs : List Value) {d : Document} {cs : List Char}, Spells d cs →
    ∃ es, cs ++ writeItems vs = es ++ [']'] ∧ Derives (.items (d :: itemDocuments vs)) es
  | [], _, cs, h => ⟨cs, rfl, .item h⟩
  | v :: vs, _, cs, h => by
    obtain ⟨es, hes, hd⟩ := derives_items vs v.spells_write
    refine ⟨cs ++ ',' :: es, ?_, .moreItems h hd⟩
    rw [writeItems, hes, List.append_assoc]
    rfl

/-- The members after a first one, and the closing brace. -/
theorem derives_members : ∀ (ms : List (String × Value)) {ls : List Letter} {d : Document} {ns cs : List Char},
    SpellsName ls ns → Spells d cs →
      ∃ es, ns ++ ':' :: (cs ++ writeMembers ms) = es ++ ['}'] ∧ Derives (.members ((ls, d) :: memberDocuments ms)) es
  | [], _, _, ns, cs, hn, h => ⟨ns ++ ':' :: cs, by rw [writeMembers, List.append_assoc]; rfl, .member hn h⟩
  | (k, v) :: ms, _, _, ns, cs, hn, h => by
    obtain ⟨es, hes, hd⟩ := derives_members ms (spellsName_quote k) v.spells_write
    refine ⟨ns ++ ':' :: (cs ++ ',' :: es), ?_, .moreMembers hn h hd⟩
    rw [writeMembers, hes]
    simp only [List.append_assoc, List.cons_append]

end

/-- What is written compactly is read as the document of the value. -/
theorem Value.ofSource?_compact (v : Value) : Document.ofSource? (sourceOf v.compact) = some v.document := by
  rw [sourceOf, compact, String.toList_ofList]
  exact Document.ofSource?_of_spells v.spells_write

/-! ## Looking into documents -/

namespace Document

/-- What an object first gives to a name. -/
def member? (name : String) : Document → Option Document
  | .object ms => (ms.find? fun m => Letter.string? m.1 == some name).map Prod.snd
  | _ => none

/-- The first item of an array. -/
def first? : Document → Option Document
  | .array (d :: _) => some d
  | _ => none

/-- The natural number that digits spell. -/
def count? : Document → Option Nat
  | .number ⟨false, whole, [], none⟩ => some (Numeral.value 10 whole)
  | _ => none

theorem member?_document (v : Value) (name : String) :
    v.document.member? name = (v.member? name).map Value.document := by
  cases v with
  | object ms =>
    show ((memberDocuments ms).find? _).map Prod.snd = ((ms.find? fun m => m.1 == name).map Prod.snd).map _
    induction ms with
    | nil => rfl
    | cons m ms ih =>
      obtain ⟨k, v⟩ := m
      rw [memberDocuments, List.find?_cons, List.find?_cons, Letter.string?_ofText_beq]
      cases k == name with
      | true => rfl
      | false => exact ih
  | _ => rfl

theorem string?_document (s : String) : (Value.string s).document.string? = some s := Letter.string?_ofText s

theorem count?_document (n : Nat) : (Value.nat n).document.count? = some n := by
  have hsign : decide ((n : Int) < 0) = false := decide_eq_false (Int.not_lt.2 (Int.natCast_nonneg n))
  show count? (.number ⟨decide ((n : Int) < 0), Numeral.digits 10 n, [], none⟩) = some n
  rw [hsign]
  show some (Numeral.value 10 (Numeral.digits 10 n)) = some n
  rw [Numeral.value_digits (by omega) (by omega)]

end Document

/-! ## Control characters -/

/-- Whether a text has no control characters below the blank. -/
def NoControls (cs : List Char) : Prop := ∀ c ∈ cs, 0x20 ≤ c.toNat

instance (cs : List Char) : Decidable (NoControls cs) := List.decidableBAll (fun c : Char => 0x20 ≤ c.toNat) cs

theorem NoControls.append {cs ds : List Char} (hc : NoControls cs) (hd : NoControls ds) : NoControls (cs ++ ds) :=
  List.forall_mem_append.2 ⟨hc, hd⟩

theorem NoControls.cons {c : Char} {cs : List Char} (hc : 0x20 ≤ c.toNat) (hcs : NoControls cs) :
    NoControls (c :: cs) :=
  List.forall_mem_cons.2 ⟨hc, hcs⟩

theorem noControls_nil : NoControls [] := fun _ h => nomatch h

theorem le_toNat_of_isDigit {c : Char} (h : c.isDigit = true) : 0x20 ≤ c.toNat := by
  simp only [Char.isDigit, Bool.and_eq_true, decide_eq_true_eq] at h
  have : '0'.val.toNat ≤ c.val.toNat := UInt32.le_iff_toNat_le.1 h.1
  exact Nat.le_trans (by decide) this

theorem le_toNat_of_isHexDigit {c : Char} (h : Numeral.isDigit 16 c = true) : 0x20 ≤ c.toNat := by
  rw [Numeral.isDigit, decide_eq_true_iff, Numeral.digitValue] at h
  split at h
  · rename_i hd
    exact le_toNat_of_isDigit hd
  split at h
  · rename_i hc
    exact Nat.le_trans (by decide) (UInt32.le_iff_toNat_le.1 hc.1 : 'a'.val.toNat ≤ c.val.toNat)
  split at h
  · rename_i hc
    exact Nat.le_trans (by decide) (UInt32.le_iff_toNat_le.1 hc.1 : 'A'.val.toNat ≤ c.val.toNat)
  · omega

theorem SpellsLetter.noControls {l : Letter} {cs : List Char} (h : SpellsLetter l cs) : NoControls cs := by
  cases h with
  | itself hcontrol => exact .cons hcontrol noControls_nil
  | @escaped e c h =>
    refine .cons (by decide) (.cons ?_ noControls_nil)
    -- Every letter that may follow a backslash is printable.
    have hall : ∀ p ∈ escapes, 0x20 ≤ p.1.toNat := by decide
    exact hall _ h
  | unit h =>
    exact .cons (by decide) (.cons (by decide) fun c hc => le_toNat_of_isHexDigit (h c hc))

theorem SpellsLetters.noControls {ls : List Letter} {cs : List Char} (h : SpellsLetters ls cs) : NoControls cs := by
  induction h with
  | nil => exact noControls_nil
  | cons h hs ih => exact h.noControls.append ih

theorem AreDigits.noControls {ds : List Char} (h : AreDigits ds) : NoControls ds := fun d hd =>
  le_toNat_of_isDigit (h.2 d hd)

theorem SpellsNumber.noControls {t : NumberText} {cs : List Char} (h : SpellsNumber t cs) : NoControls cs := by
  cases h with
  | mk negative hw hz hf he =>
    refine .append ?_ (.append hw.noControls (.append ?_ ?_))
    · cases negative <;> decide
    · cases hf with
      | none => exact noControls_nil
      | some h => exact .cons (by decide) h.noControls
    · cases he with
      | none => exact noControls_nil
      | some he hs h =>
        refine .cons ?_ (.append ?_ h.noControls)
        · rcases he with rfl | rfl <;> decide
        · cases hs <;> decide

theorem noControls_quote (s : String) : NoControls (quote s) :=
  .cons (by decide) (.append (spells_quote s).noControls (by decide))

mutual

/-- The compact text of a value has no control characters. -/
theorem Value.noControls_write : ∀ v : Value, NoControls v.write
  | .null => by decide
  | .bool true => by decide
  | .bool false => by decide
  | .number n => (spells_number n).noControls
  | .string s => noControls_quote s
  | .array [] => by decide
  | .array (v :: vs) => .cons (by decide) (.append v.noControls_write (noControls_writeItems vs))
  | .object [] => by decide
  | .object ((k, v) :: ms) =>
    .cons (by decide) (.append (noControls_quote k)
      (.cons (by decide) (.append v.noControls_write (noControls_writeMembers ms))))

theorem noControls_writeItems : ∀ vs : List Value, NoControls (writeItems vs)
  | [] => by decide
  | v :: vs => .cons (by decide) (.append v.noControls_write (noControls_writeItems vs))

theorem noControls_writeMembers : ∀ ms : List (String × Value), NoControls (writeMembers ms)
  | [] => by decide
  | (k, v) :: ms =>
    .cons (by decide) (.append (noControls_quote k)
      (.cons (by decide) (.append v.noControls_write (noControls_writeMembers ms))))

end

end ScriptedModel.Json
