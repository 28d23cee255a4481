/-
Decoding the bytes of a text gives its characters, without a gap.
-/
import ScriptedModel.Text.Utf8

namespace ScriptedModel.Utf8

/-! ## Bytes of one character -/

theorem decodeFrom_byte (s : Option Partial) {n : Nat} (hn : n < 256) (bs : List UInt8) :
    decodeFrom s (UInt8.ofNat n :: bs) = (feed s n).1 ++ decodeFrom (feed s n).2 bs := by
  have hbyte : (UInt8.ofNat n).toNat = n := by
    rw [UInt8.toNat_ofNat']
    omega
  rw [decodeFrom, hbyte]

theorem decodeFrom_within {p : Partial} {n more : Nat} (h : p.low ≤ n ∧ n ≤ p.high) (hn : n < 256)
    (hmore : p.more = more + 1) (bs : List UInt8) :
    decodeFrom (some p) (UInt8.ofNat n :: bs) =
      decodeFrom (some ⟨p.bits * 64 + n % 64, 0x80, 0xBF, more⟩) bs := by
  rw [decodeFrom_byte _ hn, feed, if_pos h]
  simp only [hmore, List.nil_append]

theorem decodeFrom_last {p : Partial} {n : Nat} (h : p.low ≤ n ∧ n ≤ p.high) (hn : n < 256) (hmore : p.more = 0)
    (bs : List UInt8) :
    decodeFrom (some p) (UInt8.ofNat n :: bs) = some (Char.ofNat (p.bits * 64 + n % 64)) :: decodeFrom none bs := by
  rw [decodeFrom_byte _ hn, feed, if_pos h]
  simp only [hmore, List.cons_append, List.nil_append]

/-- What the first of three bytes says, the next of which is `n`. -/
theorem lead_three {b n : Nat} (hb : 0xE0 ≤ b ∧ b < 0xF0) (hn : 0x80 ≤ n ∧ n ≤ 0xBF) (hlow : b = 0xE0 → 0xA0 ≤ n)
    (hgap : b = 0xED → n ≤ 0x9F) :
    ∃ low high, lead b = ([], some ⟨b - 0xE0, low, high, 1⟩) ∧ low ≤ n ∧ n ≤ high := by
  unfold lead
  rw [if_neg (by omega), if_neg (by omega), if_neg (by omega)]
  by_cases h₀ : b = 0xE0
  · exact ⟨0xA0, 0xBF, by rw [if_pos h₀, h₀], hlow h₀, hn.2⟩
  rw [if_neg h₀]
  by_cases h₁ : b = 0xED
  · exact ⟨0x80, 0x9F, by rw [if_pos h₁, h₁], hn.1, hgap h₁⟩
  rw [if_neg h₁, if_pos (by omega)]
  exact ⟨0x80, 0xBF, rfl, hn⟩

/-- What the first of four bytes says, the next of which is `n`. -/
theorem lead_four {b n : Nat} (hb : 0xF0 ≤ b ∧ b ≤ 0xF4) (hn : 0x80 ≤ n ∧ n ≤ 0xBF) (hlow : b = 0xF0 → 0x90 ≤ n)
    (hhigh : b = 0xF4 → n ≤ 0x8F) :
    ∃ low high, lead b = ([], some ⟨b - 0xF0, low, high, 2⟩) ∧ low ≤ n ∧ n ≤ high := by
  unfold lead
  rw [if_neg (by omega), if_neg (by omega), if_neg (by omega), if_neg (by omega), if_neg (by omega),
    if_neg (by omega)]
  by_cases h₀ : b = 0xF0
  · exact ⟨0x90, 0xBF, by rw [if_pos h₀, h₀], hlow h₀, hn.2⟩
  rw [if_neg h₀]
  by_cases h₁ : b < 0xF4
  · exact ⟨0x80, 0xBF, by rw [if_pos h₁], hn⟩
  rw [if_neg h₁, if_pos (by omega)]
  exact ⟨0x80, 0x8F, by rw [show b = 0xF4 by omega], hn.1, hhigh (by omega)⟩

/-- The bytes of a character are decoded to it, whatever follows. -/
theorem decodeFrom_char (c : Char) (bs : List UInt8) :
    decodeFrom none (String.utf8EncodeChar c ++ bs) = some c :: decodeFrom none bs := by
  obtain ⟨v, hv⟩ : ∃ v, c.val.toNat = v := ⟨_, rfl⟩
  have hc : c = Char.ofNat v := by rw [← hv]; exact (Char.ofNat_toNat c).symm
  -- No character lies between the two halves of a surrogate pair, or beyond the last plane.
  have hvalid : v < 0xD800 ∨ 0xDFFF < v ∧ v < 0x110000 := by
    rw [← hv]
    exact c.valid
  unfold String.utf8EncodeChar
  simp only [hv]
  -- One case for each number of bytes; the bits that the bytes carry add up to the number.
  split
  · rw [List.singleton_append, decodeFrom_byte none (by omega), feed, lead, if_pos (by omega), hc]
    rfl
  split
  · rw [List.cons_append, List.cons_append, List.nil_append, decodeFrom_byte none (by omega), feed, lead,
      if_neg (by omega), if_neg (by omega), if_pos (by omega)]
    show decodeFrom (some _) _ = _
    rw [decodeFrom_last (by show 0x80 ≤ _ ∧ _ ≤ 0xBF; omega) (by omega) rfl, hc]
    congr 3
    show (v / 64 % 0x20 + 0xC0 - 0xC0) * 64 + (v % 0x40 + 0x80) % 64 = v
    omega
  split
  · obtain ⟨low, high, hlead, hrange⟩ := lead_three (b := v / 4096 % 0x10 + 0xE0) (n := v / 64 % 0x40 + 0x80)
      (by omega) (by omega) (by omega) (by omega)
    rw [List.cons_append, List.cons_append, List.cons_append, List.nil_append, decodeFrom_byte none (by omega), feed,
      hlead]
    show decodeFrom (some _) _ = _
    rw [decodeFrom_within hrange (by omega) rfl,
      decodeFrom_last (by show 0x80 ≤ _ ∧ _ ≤ 0xBF; omega) (by omega) rfl, hc]
    congr 3
    show ((v / 4096 % 0x10 + 0xE0 - 0xE0) * 64 + (v / 64 % 0x40 + 0x80) % 64) * 64 + (v % 0x40 + 0x80) % 64 = v
    omega
  · obtain ⟨low, high, hlead, hrange⟩ := lead_four (b := v / 262144 % 0x08 + 0xF0) (n := v / 4096 % 0x40 + 0x80)
      (by omega) (by omega) (by omega) (by omega)
    rw [List.cons_append, List.cons_append, List.cons_append, List.cons_append, List.nil_append,
      decodeFrom_byte none (by omega), feed, hlead]
    show decodeFrom (some _) _ = _
    rw [decodeFrom_within hrange (by omega) rfl,
      decodeFrom_within (by show 0x80 ≤ _ ∧ _ ≤ 0xBF; omega) (by omega) rfl,
      decodeFrom_last (by show 0x80 ≤ _ ∧ _ ≤ 0xBF; omega) (by omega) rfl, hc]
    congr 3
    show (((v / 262144 % 0x08 + 0xF0 - 0xF0) * 64 + (v / 4096 % 0x40 + 0x80) % 64) * 64 +
      (v / 64 % 0x40 + 0x80) % 64) * 64 + (v % 0x40 + 0x80) % 64 = v
    omega

/-! ## Texts -/

theorem decode_encode (cs : List Char) : decode (encode cs) = cs.map some := by
  induction cs with
  | nil => rfl
  | cons c cs ih =>
    have hcons : encode (c :: cs) = String.utf8EncodeChar c ++ encode cs := List.flatMap_cons
    rw [decode, hcons, decodeFrom_char, List.map_cons]
    exact congrArg (some c :: ·) ih

end ScriptedModel.Utf8
