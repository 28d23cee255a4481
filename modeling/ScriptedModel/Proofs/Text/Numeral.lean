/-
The digits of a number spell it: they are digits of the base, reading them back gives the number,
and only the number zero begins with a zero. Decimal digits that do not begin with a zero are written
for the number that they spell. Digits that are read with a ceiling give the number that they spell,
or the ceiling.
-/
import ScriptedModel.Text.Numeral

namespace ScriptedModel.Numeral

section Digits

variable {base : Nat} (hlow : 2 ≤ base) (hhigh : base ≤ 16)

theorem digitValue_digitChar : ∀ n < 16, digitValue (Nat.digitChar n) = n := by decide

theorem digits_ne_nil (base n : Nat) : digits base n ≠ [] := by
  unfold digits
  split
  · exact List.cons_ne_nil _ _
  · exact fun h => List.cons_ne_nil _ _ (List.append_eq_nil_iff.1 h).2

theorem digits_of_lt {n : Nat} (h : n < base) : digits base n = [Nat.digitChar n] := by
  rw [digits, dif_pos (.inl h)]

include hlow

theorem digits_of_le {n : Nat} (h : base ≤ n) :
    digits base n = digits base (n / base) ++ [Nat.digitChar (n % base)] := by
  rw [digits, dif_neg (by omega)]

include hhigh

theorem exists_digitChar_of_mem {n : Nat} {d : Char} (h : d ∈ digits base n) : ∃ k < base, d = Nat.digitChar k := by
  induction n using Nat.strongRecOn with
  | _ n ih =>
    by_cases hn : n < base
    · rw [digits_of_lt hn, List.mem_singleton] at h
      exact ⟨n, hn, h⟩
    rw [digits_of_le hlow (Nat.le_of_not_lt hn), List.mem_append, List.mem_singleton] at h
    rcases h with h | h
    · exact ih (n / base) (Nat.div_lt_self (by omega) (by omega)) h
    · exact ⟨n % base, Nat.mod_lt n (by omega), h⟩

theorem isDigit_of_mem_digits {n : Nat} {d : Char} (h : d ∈ digits base n) : isDigit base d = true := by
  obtain ⟨k, hk, rfl⟩ := exists_digitChar_of_mem hlow hhigh h
  rw [isDigit, digitValue_digitChar k (by omega), decide_eq_true_iff]
  exact hk

theorem value_digits (n : Nat) : value base (digits base n) = n := by
  induction n using Nat.strongRecOn with
  | _ n ih =>
    by_cases hn : n < base
    · rw [digits_of_lt hn]
      show 0 * base + digitValue (Nat.digitChar n) = n
      rw [digitValue_digitChar n (by omega), Nat.zero_mul, Nat.zero_add]
    have hdiv : n / base < n := Nat.div_lt_self (by omega) (by omega)
    have hmod : n % base < base := Nat.mod_lt n (by omega)
    rw [digits_of_le hlow (Nat.le_of_not_lt hn), value, valueFrom, List.foldl_append]
    show value base (digits base (n / base)) * base + digitValue (Nat.digitChar (n % base)) = n
    rw [ih _ hdiv, digitValue_digitChar _ (by omega), Nat.mul_comm]
    exact Nat.div_add_mod n base

theorem head?_digits {n : Nat} (hn : n ≠ 0) :
    ∃ k, 0 < k ∧ k < base ∧ (digits base n).head? = some (Nat.digitChar k) := by
  induction n using Nat.strongRecOn with
  | _ n ih =>
    by_cases hlt : n < base
    · exact ⟨n, Nat.pos_of_ne_zero hn, hlt, by rw [digits_of_lt hlt]; rfl⟩
    have hle := Nat.le_of_not_lt hlt
    obtain ⟨k, hk, hkb, hhead⟩ := ih (n / base) (Nat.div_lt_self (by omega) (by omega))
      (Nat.ne_of_gt (Nat.div_pos hle (by omega)))
    refine ⟨k, hk, hkb, ?_⟩
    rw [digits_of_le hlow hle, List.head?_append, hhead]
    rfl

end Digits

/-! ## Decimal digits -/

theorem digitChar_isDigit : ∀ n < 10, (Nat.digitChar n).isDigit = true := by decide

theorem digitChar_ne_zero : ∀ n < 16, 0 < n → Nat.digitChar n ≠ '0' := by decide

theorem isDigit_of_mem_decimal {n : Nat} {d : Char} (h : d ∈ digits 10 n) : d.isDigit = true := by
  obtain ⟨k, hk, rfl⟩ := exists_digitChar_of_mem (by omega) (by omega) h
  exact digitChar_isDigit k hk

theorem head?_digits_ne_zero {base n : Nat} (hlow : 2 ≤ base) (hhigh : base ≤ 16) (hn : n ≠ 0) :
    (digits base n).head? ≠ some '0' := by
  obtain ⟨k, hpos, hk, hhead⟩ := head?_digits hlow hhigh hn
  rw [hhead]
  intro h
  exact digitChar_ne_zero k (by omega) hpos (Option.some.inj h)

/-! ## Numbers and their digits -/

theorem value?_eq_some_iff {base n : Nat} {ds : List Char} :
    value? base ds = some n ↔ ds ≠ [] ∧ (∀ d ∈ ds, isDigit base d = true) ∧ value base ds = n := by
  rw [value?]
  split
  · rename_i h
    rw [List.all_eq_true] at h
    exact ⟨fun hn => ⟨h.1, h.2, Option.some.inj hn⟩, fun hn => congrArg some hn.2.2⟩
  · rename_i h
    rw [List.all_eq_true] at h
    refine ⟨fun hn => ?_, fun hn => absurd ⟨hn.1, hn.2.1⟩ h⟩
    cases hn

theorem value?_digits {base : Nat} (hlow : 2 ≤ base) (hhigh : base ≤ 16) (n : Nat) :
    value? base (digits base n) = some n :=
  value?_eq_some_iff.2
    ⟨digits_ne_nil base n, fun _ hd => isDigit_of_mem_digits hlow hhigh hd, value_digits hlow hhigh n⟩

theorem length_digits_le {base : Nat} (hlow : 2 ≤ base) {k n : Nat} (h : n < Nat.pow base (k + 1)) :
    (digits base n).length ≤ k + 1 := by
  induction k generalizing n with
  | zero =>
    have hlt : n < base := by simpa [Nat.pow] using h
    rw [digits_of_lt hlt]
    exact Nat.le_refl 1
  | succ k ih =>
    by_cases hn : n < base
    · rw [digits_of_lt hn, List.length_singleton]
      omega
    · rw [digits_of_le hlow (Nat.le_of_not_lt hn), List.length_append, List.length_singleton]
      have hmul : n < base * Nat.pow base (k + 1) := Nat.mul_comm base _ ▸ h
      have hdiv : n / base < Nat.pow base (k + 1) := Nat.div_lt_of_lt_mul hmul
      exact Nat.succ_le_succ (ih hdiv)

theorem value_concat (base : Nat) (ds : List Char) (d : Char) :
    value base (ds ++ [d]) = value base ds * base + digitValue d := by
  rw [value, valueFrom, List.foldl_append]
  rfl

theorem digitChar_digitValue {d : Char} (h : isDigit 10 d = true) : Nat.digitChar (digitValue d) = d := by
  have hd : d.isDigit = true := by
    rw [isDigit, decide_eq_true_iff, digitValue] at h
    split at h
    · assumption
    -- A letter counts for ten at least.
    · repeat' split at h
      all_goals omega
  rw [digitValue, if_pos hd]
  simp only [Char.isDigit, Bool.and_eq_true, decide_eq_true_eq] at hd
  have hlow : 48 ≤ d.toNat := UInt32.le_iff_toNat_le.1 hd.1
  have hhigh : d.toNat ≤ 57 := UInt32.le_iff_toNat_le.1 hd.2
  have hall : ∀ n < 10, Nat.digitChar n = Char.ofNat (n + 48) := by decide
  show Nat.digitChar (d.toNat - 48) = d
  rw [hall _ (by omega), Nat.sub_add_cancel hlow, Char.ofNat_toNat]

/-- Decimal digits are written for the number that they spell, unless they begin with a zero in vain. -/
theorem digits_value {ds : List Char} (hne : ds ≠ []) (hds : ∀ d ∈ ds, isDigit 10 d = true)
    (hzero : ds.head? = some '0' → ds.length = 1) : digits 10 (value 10 ds) = ds := by
  obtain ⟨init, d, rfl⟩ : ∃ init d, ds = init ++ [d] :=
    ⟨ds.dropLast, ds.getLast hne, (List.dropLast_concat_getLast hne).symm⟩
  have hd : isDigit 10 d = true := hds d (by simp)
  have hlt : digitValue d < 10 := by rwa [isDigit, decide_eq_true_iff] at hd
  rw [value_concat]
  by_cases hinit : init = []
  · subst hinit
    rw [show value 10 [] = 0 from rfl, Nat.zero_mul, Nat.zero_add, digits_of_lt hlt, digitChar_digitValue hd]
    rfl
  · have hhead : init.head? ≠ some '0' := by
      intro h
      have := hzero (by rw [List.head?_append, h]; rfl)
      rw [List.length_append, List.length_singleton] at this
      exact hinit (List.length_eq_zero_iff.1 (by omega))
    have ih := digits_value hinit (fun c hc => hds c (List.mem_append_left _ hc)) (fun h => absurd h hhead)
    -- The digits before the last do not spell zero, which is written as such.
    have hpos : value 10 init ≠ 0 := by
      intro h
      rw [h, digits_of_lt (by omega)] at ih
      exact hhead (by rw [← ih]; rfl)
    have hdiv : (value 10 init * 10 + digitValue d) / 10 = value 10 init := by omega
    have hmod : (value 10 init * 10 + digitValue d) % 10 = digitValue d := by omega
    rw [digits_of_le (by omega) (by omega), hdiv, hmod, ih, digitChar_digitValue hd]
termination_by ds.length

/-! ## Reading with a ceiling -/

/-- A ceiling that is kept at every step is kept at the end alone. -/
theorem saturated_eq_min {base : Nat} (hbase : 1 ≤ base) (ceiling : Nat) (ds : List Char) :
    saturated base ceiling ds = min (value base ds) ceiling := by
  have hfold : ∀ n, ds.foldl (fun n d => min (n * base + digitValue d) ceiling) (min n ceiling) =
      min (valueFrom base n ds) ceiling := by
    induction ds with
    | nil => exact fun _ => rfl
    | cons d ds ih =>
      intro n
      have hstep : min (min n ceiling * base + digitValue d) ceiling = min (n * base + digitValue d) ceiling := by
        -- Once the ceiling is reached, another digit does not lead below it.
        by_cases hn : n ≤ ceiling
        · rw [Nat.min_eq_left hn]
        · have hle : ceiling * 1 ≤ ceiling * base := Nat.mul_le_mul_left _ hbase
          have hle' : n * 1 ≤ n * base := Nat.mul_le_mul_left _ hbase
          rw [Nat.min_eq_right (by omega : ceiling ≤ n)]
          omega
      rw [List.foldl_cons, hstep]
      exact ih (n * base + digitValue d)
  have h := hfold 0
  rw [Nat.zero_min] at h
  exact h

/-! ## Padding -/

theorem value_padded {base : Nat} (hlow : 2 ≤ base) (hhigh : base ≤ 16) (width n : Nat) :
    value base (padded base width n) = n := by
  have hzeros : ∀ k, (List.replicate k '0').foldl (fun n d => n * base + digitValue d) 0 = 0 := by
    intro k
    induction k with
    | zero => rfl
    | succ k ih =>
      rw [List.replicate_succ, List.foldl_cons]
      show List.foldl _ (0 * base + 0) _ = 0
      rw [Nat.zero_mul]
      exact ih
  rw [padded, value, valueFrom, List.foldl_append, hzeros]
  exact value_digits hlow hhigh n

theorem length_padded {base width n : Nat} (h : (digits base n).length ≤ width) :
    (padded base width n).length = width := by
  rw [padded, List.length_append, List.length_replicate]
  omega

theorem isDigit_of_mem_padded {base : Nat} (hlow : 2 ≤ base) (hhigh : base ≤ 16) {width n : Nat} {d : Char}
    (h : d ∈ padded base width n) : isDigit base d = true := by
  rw [padded, List.mem_append] at h
  rcases h with h | h
  · rw [List.eq_of_mem_replicate h, isDigit, decide_eq_true_iff]
    show 0 < base
    omega
  · exact isDigit_of_mem_digits hlow hhigh h

end ScriptedModel.Numeral
