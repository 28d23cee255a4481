/-
Bytes that need not be text. They are cut into characters and gaps: a gap is a byte that begins no
character, or a longest start of a character that the bytes after it do not complete.

Main statement: decoding shows just these characters and gaps, in order.

A character under way is told by the bytes that were read of it: what completes it is what, put after
these bytes, makes the encoding of a character.
-/
import Mathlib.Data.List.Induction
import ScriptedModel.Proofs.Text.Utf8

namespace ScriptedModel.Utf8

/-! ## Characters and gaps -/

/-- Whether bytes begin the encoding of a character. -/
def Begins (bs : List UInt8) : Prop := ∃ c rest, String.utf8EncodeChar c = bs ++ rest

/-- The characters and gaps of bytes. -/
inductive Shows : List UInt8 → List (Option Char) → Prop
  | nil : Shows [] []
  | char {bs : List UInt8} {cs : List (Option Char)} (c : Char) (h : Shows bs cs) :
    Shows (String.utf8EncodeChar c ++ bs) (some c :: cs)
  | stray {b : UInt8} {bs : List UInt8} {cs : List (Option Char)} (hb : ¬ Begins [b]) (h : Shows bs cs) :
    Shows (b :: bs) (none :: cs)
  | broken {start bs : List UInt8} {cs : List (Option Char)} (hne : start ≠ []) (hstart : Begins start)
    (hopen : ∀ c, String.utf8EncodeChar c ≠ start) (hstop : ∀ b ∈ bs.head?, ¬ Begins (start ++ [b]))
    (h : Shows bs cs) : Shows (start ++ bs) (none :: cs)

/-! ## Single bytes -/

theorem feed_within {p : Partial} {n more : Nat} (h : p.low ≤ n ∧ n ≤ p.high) (hmore : p.more = more + 1) :
    feed (some p) n = ([], some ⟨p.bits * 64 + n % 64, 0x80, 0xBF, more⟩) := by
  rw [feed, if_pos h, hmore]

theorem feed_last {p : Partial} {n : Nat} (h : p.low ≤ n ∧ n ≤ p.high) (hmore : p.more = 0) :
    feed (some p) n = ([some (Char.ofNat (p.bits * 64 + n % 64))], none) := by
  rw [feed, if_pos h, hmore]

theorem feed_beyond {p : Partial} {n : Nat} (h : ¬ (p.low ≤ n ∧ n ≤ p.high)) :
    feed (some p) n = (none :: (lead n).1, (lead n).2) := by
  rw [feed, if_neg h]

theorem feed_open {p q : Partial} {n : Nat} (h : feed (some p) n = ([], some q)) :
    (p.low ≤ n ∧ n ≤ p.high) ∧ ∃ more, p.more = more + 1 ∧ q = ⟨p.bits * 64 + n % 64, 0x80, 0xBF, more⟩ := by
  by_cases hb : p.low ≤ n ∧ n ≤ p.high
  · cases hmore : p.more with
    | zero =>
      rw [feed_last hb hmore] at h
      cases h
    | succ more =>
      rw [feed_within hb hmore] at h
      exact ⟨hb, more, rfl, by cases h; rfl⟩
  · rw [feed_beyond hb] at h
    cases h

/-- A first byte is a character, a gap, or the start of a character. -/
theorem lead_outcome (n : Nat) : (n < 0x80 ∧ lead n = ([some (Char.ofNat n)], none)) ∨ lead n = ([none], none) ∨
    ∃ p, lead n = ([], some p) := by
  by_cases hn : n < 0x80
  · exact .inl ⟨hn, if_pos hn⟩
  · unfold lead
    rw [if_neg hn]
    repeat' split
    all_goals simp

/-- A byte shows something, or leaves a character under way. -/
theorem feed_shows_or_opens (s : Option Partial) (n : Nat) : (feed s n).1 ≠ [] ∨ (feed s n).2.isSome := by
  cases s with
  | none =>
    rw [feed]
    rcases lead_outcome n with ⟨-, hlead⟩ | hlead | ⟨p, hlead⟩ <;> rw [hlead]
    · exact .inl (List.cons_ne_nil _ _)
    · exact .inl (List.cons_ne_nil _ _)
    · exact .inr rfl
  | some p =>
    by_cases hb : p.low ≤ n ∧ n ≤ p.high
    · cases hmore : p.more with
      | zero =>
        rw [feed_last hb hmore]
        exact .inl (List.cons_ne_nil _ _)
      | succ more =>
        rw [feed_within hb hmore]
        exact .inr rfl
    · rw [feed_beyond hb]
      exact .inl (List.cons_ne_nil _ _)

/-- What a first byte leaves open, by the number of bytes that it asks for. -/
theorem lead_open {n : Nat} {p : Partial} (h : lead n = ([], some p)) :
    (0xC2 ≤ n ∧ n < 0xE0 ∧ p.more = 0 ∧ p.low = 0x80 ∧ p.high = 0xBF) ∨
    (0xE0 ≤ n ∧ n < 0xF0 ∧ p.more = 1 ∧ 0x80 ≤ p.low ∧ p.low ≤ p.high ∧ p.high ≤ 0xBF ∧
      (n = 0xE0 → 0xA0 ≤ p.low) ∧ (n = 0xED → p.high ≤ 0x9F)) ∨
    (0xF0 ≤ n ∧ n ≤ 0xF4 ∧ p.more = 2 ∧ 0x80 ≤ p.low ∧ p.low ≤ p.high ∧ p.high ≤ 0xBF ∧
      (n = 0xF0 → 0x90 ≤ p.low) ∧ (n = 0xF4 → p.high ≤ 0x8F)) := by
  unfold lead at h
  repeat' split at h
  all_goals
    simp only [Prod.mk.injEq, Option.some.injEq, reduceCtorEq, List.cons_ne_nil, and_false, true_and] at h
  all_goals
    subst h
    dsimp only
  · exact .inl ⟨by omega, by omega, rfl, rfl, rfl⟩
  -- The next byte of the first, the middle and the last of these has to lie in a range of its own.
  · refine .inr (.inl ⟨?_, ?_, rfl, ?_⟩) <;> omega
  · refine .inr (.inl ⟨?_, ?_, rfl, ?_⟩) <;> omega
  · refine .inr (.inl ⟨?_, ?_, rfl, ?_⟩) <;> omega
  · refine .inr (.inr ⟨?_, ?_, rfl, ?_⟩) <;> omega
  · refine .inr (.inr ⟨?_, ?_, rfl, ?_⟩) <;> omega
  · refine .inr (.inr ⟨?_, ?_, rfl, ?_⟩) <;> omega

/-! ## Completing a character -/

/-- The bytes that complete a character under way. -/
inductive Completes : Partial → List UInt8 → Prop
  | last {p : Partial} {b : UInt8} (hb : p.low ≤ b.toNat ∧ b.toNat ≤ p.high) (hmore : p.more = 0) : Completes p [b]
  | more {p : Partial} {b : UInt8} {more : Nat} {bs : List UInt8} (hb : p.low ≤ b.toNat ∧ b.toNat ≤ p.high)
    (hmore : p.more = more + 1) (h : Completes ⟨p.bits * 64 + b.toNat % 64, 0x80, 0xBF, more⟩ bs) :
    Completes p (b :: bs)

/-- A byte within the range can be followed up. -/
theorem exists_completes {p : Partial} {b : UInt8} (hb : p.low ≤ b.toNat ∧ b.toNat ≤ p.high) :
    ∃ bs, Completes p (b :: bs) := by
  obtain ⟨bits, low, high, more⟩ := p
  induction more generalizing bits low high b with
  | zero => exact ⟨[], .last hb rfl⟩
  | succ more ih =>
    have hnext : 0x80 ≤ (0x80 : UInt8).toNat ∧ (0x80 : UInt8).toNat ≤ 0xBF := by decide
    obtain ⟨bs, hbs⟩ := ih (bits * 64 + b.toNat % 64) 0x80 0xBF hnext
    exact ⟨0x80 :: bs, .more hb rfl hbs⟩

theorem Completes.of_zero {p : Partial} {bs : List UInt8} (h : Completes p bs) (hmore : p.more = 0) :
    ∃ b, bs = [b] ∧ p.low ≤ b.toNat ∧ b.toNat ≤ p.high := by
  cases h with
  | last hb _ => exact ⟨_, rfl, hb⟩
  | more _ hnext _ => omega

theorem Completes.of_succ {p : Partial} {bs : List UInt8} {more : Nat} (h : Completes p bs)
    (hmore : p.more = more + 1) :
    ∃ b cs bits, bs = b :: cs ∧ (p.low ≤ b.toNat ∧ b.toNat ≤ p.high) ∧ Completes ⟨bits, 0x80, 0xBF, more⟩ cs := by
  cases h with
  | last _ hlast => omega
  | more hb hnext h =>
    obtain rfl := Nat.succ.inj (hnext.symm.trans hmore)
    exact ⟨_, _, _, rfl, hb, h⟩

theorem Completes.head_within {p : Partial} {b : UInt8} {bs : List UInt8} (h : Completes p (b :: bs)) :
    p.low ≤ b.toNat ∧ b.toNat ≤ p.high := by
  cases h <;> assumption

theorem decodeFrom_ne_nil {s : Option Partial} {bs : List UInt8} (h : s.isSome ∨ bs ≠ []) : decodeFrom s bs ≠ [] := by
  induction bs generalizing s with
  | nil =>
    cases s with
    | none => simp at h
    | some p => simp [decodeFrom]
  | cons b bs ih =>
    rw [decodeFrom]
    rcases feed_shows_or_opens s b.toNat with hshown | hopen
    · exact List.append_ne_nil_of_left_ne_nil hshown _
    · exact List.append_ne_nil_of_right_ne_nil _ (ih (.inl hopen))

theorem completes_of_decodeFrom {p : Partial} {bs : List UInt8} {c : Char} (h : decodeFrom (some p) bs = [some c]) :
    Completes p bs := by
  induction bs generalizing p with
  | nil => simp [decodeFrom] at h
  | cons b bs ih =>
    rw [decodeFrom] at h
    by_cases hb : p.low ≤ b.toNat ∧ b.toNat ≤ p.high
    · cases hmore : p.more with
      | zero =>
        rw [feed_last hb hmore] at h
        -- The character is shown, so nothing comes after it.
        have hrest : decodeFrom none bs = [] := (List.cons.inj h).2
        have hnil : bs = [] := Classical.byContradiction fun hbs => decodeFrom_ne_nil (.inr hbs) hrest
        subst hnil
        exact .last hb hmore
      | succ more =>
        rw [feed_within hb hmore] at h
        exact .more hb hmore (ih h)
    · rw [feed_beyond hb] at h
      simp at h

/-! ## Characters by their bytes -/

/-- The bytes of a character by its number. -/
theorem utf8EncodeChar_ofNat {v : Nat} (hv : v < 0xD800 ∨ 0xDFFF < v ∧ v < 0x110000) :
    String.utf8EncodeChar (Char.ofNat v) =
      if v ≤ 0x7F then [UInt8.ofNat v]
      else if v ≤ 0x7FF then [UInt8.ofNat (v / 64 % 0x20 + 0xC0), UInt8.ofNat (v % 0x40 + 0x80)]
      else if v ≤ 0xFFFF then
        [UInt8.ofNat (v / 4096 % 0x10 + 0xE0), UInt8.ofNat (v / 64 % 0x40 + 0x80), UInt8.ofNat (v % 0x40 + 0x80)]
      else
        [UInt8.ofNat (v / 262144 % 0x08 + 0xF0), UInt8.ofNat (v / 4096 % 0x40 + 0x80),
          UInt8.ofNat (v / 64 % 0x40 + 0x80), UInt8.ofNat (v % 0x40 + 0x80)] := by
  have hnat : (Char.ofNat v).val.toNat = v := by
    rw [Char.ofNat, dif_pos hv]
    rfl
  unfold String.utf8EncodeChar
  simp only [hnat]

theorem eq_ofNat {b : UInt8} {n : Nat} (h : b.toNat = n) : UInt8.ofNat n = b := by
  rw [← h, UInt8.ofNat_toNat]

theorem exists_char_one {b : UInt8} (hb : b.toNat < 0x80) : String.utf8EncodeChar (Char.ofNat b.toNat) = [b] := by
  rw [utf8EncodeChar_ofNat (by omega), if_pos (by omega), eq_ofNat rfl]

theorem exists_char_two {b c : UInt8} (hb : 0xC2 ≤ b.toNat ∧ b.toNat < 0xE0) (hc : 0x80 ≤ c.toNat ∧ c.toNat ≤ 0xBF) :
    ∃ ch, String.utf8EncodeChar ch = [b, c] := by
  refine ⟨Char.ofNat ((b.toNat - 0xC0) * 64 + (c.toNat - 0x80)), ?_⟩
  rw [utf8EncodeChar_ofNat (by omega), if_neg (by omega), if_pos (by omega), eq_ofNat (b := b) (by omega),
    eq_ofNat (b := c) (by omega)]

theorem exists_char_three {b c d : UInt8} (hb : 0xE0 ≤ b.toNat ∧ b.toNat < 0xF0)
    (hc : 0x80 ≤ c.toNat ∧ c.toNat ≤ 0xBF) (hlow : b.toNat = 0xE0 → 0xA0 ≤ c.toNat)
    (hgap : b.toNat = 0xED → c.toNat ≤ 0x9F) (hd : 0x80 ≤ d.toNat ∧ d.toNat ≤ 0xBF) :
    ∃ ch, String.utf8EncodeChar ch = [b, c, d] := by
  refine ⟨Char.ofNat ((b.toNat - 0xE0) * 4096 + (c.toNat - 0x80) * 64 + (d.toNat - 0x80)), ?_⟩
  rw [utf8EncodeChar_ofNat (by omega), if_neg (by omega), if_neg (by omega), if_pos (by omega),
    eq_ofNat (b := b) (by omega), eq_ofNat (b := c) (by omega), eq_ofNat (b := d) (by omega)]

theorem exists_char_four {b c d e : UInt8} (hb : 0xF0 ≤ b.toNat ∧ b.toNat ≤ 0xF4)
    (hc : 0x80 ≤ c.toNat ∧ c.toNat ≤ 0xBF) (hlow : b.toNat = 0xF0 → 0x90 ≤ c.toNat)
    (hhigh : b.toNat = 0xF4 → c.toNat ≤ 0x8F) (hd : 0x80 ≤ d.toNat ∧ d.toNat ≤ 0xBF)
    (he : 0x80 ≤ e.toNat ∧ e.toNat ≤ 0xBF) : ∃ ch, String.utf8EncodeChar ch = [b, c, d, e] := by
  refine ⟨Char.ofNat ((b.toNat - 0xF0) * 262144 + (c.toNat - 0x80) * 4096 + (d.toNat - 0x80) * 64 +
    (e.toNat - 0x80)), ?_⟩
  rw [utf8EncodeChar_ofNat (by omega), if_neg (by omega), if_neg (by omega), if_neg (by omega),
    eq_ofNat (b := b) (by omega), eq_ofNat (b := c) (by omega), eq_ofNat (b := d) (by omega),
    eq_ofNat (b := e) (by omega)]

/-- What completes the character of a first byte makes its encoding. -/
theorem exists_char_of_lead {b : UInt8} {p : Partial} {bs : List UInt8} (hlead : lead b.toNat = ([], some p))
    (h : Completes p bs) : ∃ c, String.utf8EncodeChar c = b :: bs := by
  rcases lead_open hlead with ⟨hlow, hhigh, hmore, hrange⟩ | ⟨hlow, hhigh, hmore, hrange⟩ |
    ⟨hlow, hhigh, hmore, hrange⟩
  · obtain ⟨c, rfl, hc⟩ := h.of_zero hmore
    exact exists_char_two ⟨hlow, hhigh⟩ (by omega)
  · obtain ⟨c, cs, bits, rfl, hc, h⟩ := h.of_succ hmore
    obtain ⟨d, rfl, hd⟩ := h.of_zero rfl
    exact exists_char_three ⟨hlow, hhigh⟩ (by omega) (by omega) (by omega) hd
  · obtain ⟨c, cs, bits, rfl, hc, h⟩ := h.of_succ hmore
    obtain ⟨d, ds, bits, rfl, hd, h⟩ := h.of_succ rfl
    obtain ⟨e, rfl, he⟩ := h.of_zero rfl
    exact exists_char_four ⟨hlow, hhigh⟩ (by omega) (by omega) (by omega) hd he

theorem lead_cases (b : UInt8) :
    (∃ c, lead b.toNat = ([some c], none) ∧ String.utf8EncodeChar c = [b]) ∨ lead b.toNat = ([none], none) ∨
      ∃ p, lead b.toNat = ([], some p) := by
  rcases lead_outcome b.toNat with ⟨hb, hlead⟩ | hother
  · exact .inl ⟨_, hlead, exists_char_one hb⟩
  · exact .inr hother

/-! ## Characters under way -/

/-- The bytes that are read of a character under way. -/
inductive Reads : Partial → List UInt8 → Prop
  | lead {p : Partial} {b : UInt8} (h : lead b.toNat = ([], some p)) : Reads p [b]
  | next {p q : Partial} {b : UInt8} {start : List UInt8} (h : Reads p start)
    (hfeed : feed (some p) b.toNat = ([], some q)) : Reads q (start ++ [b])

section Reads

variable {p : Partial} {start bs : List UInt8}

theorem Reads.ne_nil (h : Reads p start) : start ≠ [] := by
  cases h <;> simp

theorem Reads.decodeFrom_append (h : Reads p start) (bs : List UInt8) :
    decodeFrom none (start ++ bs) = decodeFrom (some p) bs := by
  induction h generalizing bs with
  | lead h => rw [List.singleton_append, decodeFrom, feed, h, List.nil_append]
  | next _ hfeed ih => rw [List.append_assoc, ih, List.singleton_append, decodeFrom, hfeed, List.nil_append]

/-- What completes a character under way makes the encoding of a character. -/
theorem Reads.exists_char (h : Reads p start) (hbs : Completes p bs) :
    ∃ c, String.utf8EncodeChar c = start ++ bs := by
  induction h generalizing bs with
  | lead h => exact exists_char_of_lead h hbs
  | @next p q b start _ hfeed ih =>
    obtain ⟨hb, more, hmore, rfl⟩ := feed_open hfeed
    rw [List.append_assoc]
    exact ih (.more hb hmore hbs)

theorem Reads.completes_iff (h : Reads p start) : Completes p bs ↔ ∃ c, String.utf8EncodeChar c = start ++ bs := by
  refine ⟨h.exists_char, ?_⟩
  rintro ⟨c, hc⟩
  apply completes_of_decodeFrom
  rw [← h.decodeFrom_append, ← hc, ← List.append_nil (String.utf8EncodeChar c), decodeFrom_char]
  rfl

/-- A further byte belongs to the character if it lies within the range. -/
theorem Reads.begins_iff (h : Reads p start) {b : UInt8} :
    Begins (start ++ [b]) ↔ p.low ≤ b.toNat ∧ b.toNat ≤ p.high := by
  constructor
  · rintro ⟨c, rest, hc⟩
    rw [List.append_assoc] at hc
    exact (h.completes_iff.2 ⟨c, hc⟩).head_within
  · intro hb
    obtain ⟨bs, hbs⟩ := exists_completes hb
    obtain ⟨c, hc⟩ := h.exists_char hbs
    exact ⟨c, bs, by rw [hc, List.append_assoc, List.singleton_append]⟩

theorem Reads.range (h : Reads p start) : p.low ≤ p.high ∧ p.high ≤ 0xBF := by
  cases h with
  | lead h => rcases lead_open h with h | h | h <;> omega
  | next _ hfeed =>
    obtain ⟨-, more, -, rfl⟩ := feed_open hfeed
    show 0x80 ≤ 0xBF ∧ 0xBF ≤ 0xBF
    decide

/-- What is read of a character under way begins a character and is none. -/
theorem Reads.begins (h : Reads p start) : Begins start ∧ ∀ c, String.utf8EncodeChar c ≠ start := by
  constructor
  · obtain ⟨hrange, hhigh⟩ := h.range
    have hbyte : (UInt8.ofNat p.low).toNat = p.low := by
      rw [UInt8.toNat_ofNat']
      omega
    have hlow : p.low ≤ (UInt8.ofNat p.low).toNat ∧ (UInt8.ofNat p.low).toNat ≤ p.high := by omega
    obtain ⟨c, rest, hc⟩ := h.begins_iff.2 hlow
    exact ⟨c, _, by rw [hc, List.append_assoc]⟩
  · intro c hc
    have hnone : Completes p [] := h.completes_iff.2 ⟨c, by rw [hc, List.append_nil]⟩
    cases hnone

end Reads

/-- No character is a start of another. -/
theorem not_begins_append (c : Char) {bs : List UInt8} (hbs : bs ≠ []) : ¬ Begins (String.utf8EncodeChar c ++ bs) := by
  rintro ⟨d, rest, hd⟩
  have hdecode : decodeFrom none (String.utf8EncodeChar d ++ []) = [some d] := decodeFrom_char d []
  rw [List.append_nil, hd, List.append_assoc, decodeFrom_char] at hdecode
  exact decodeFrom_ne_nil (.inr (List.append_ne_nil_of_left_ne_nil hbs _)) (List.cons.inj hdecode).2

theorem not_begins_of_lead {b : UInt8} (h : lead b.toNat = ([none], none)) : ¬ Begins [b] := by
  rintro ⟨c, rest, hc⟩
  have hdecode : decodeFrom none (String.utf8EncodeChar c ++ []) = [some c] := decodeFrom_char c []
  rw [List.append_nil, hc, List.singleton_append, decodeFrom, feed, h] at hdecode
  cases hdecode

/-- A proper start of a character is one under way. -/
theorem exists_reads {start : List UInt8} (hne : start ≠ []) (hstart : Begins start)
    (hopen : ∀ c, String.utf8EncodeChar c ≠ start) : ∃ p, Reads p start := by
  -- The induction is on the bytes from the last one.
  induction start using List.reverseRecOn with
  | nil => exact absurd rfl hne
  | append_singleton init b ih =>
    by_cases hinit : init = []
    · subst hinit
      rcases lead_cases b with ⟨c, -, hc⟩ | hnone | ⟨p, hp⟩
      · exact absurd hc (hopen c)
      · exact absurd hstart (not_begins_of_lead hnone)
      · exact ⟨p, .lead hp⟩
    · obtain ⟨c, rest, hc⟩ := hstart
      have hbegins : Begins init := ⟨c, [b] ++ rest, by rw [hc, List.append_assoc]⟩
      obtain ⟨p, hp⟩ := ih hinit hbegins fun d hd => by
        rw [← hd] at hc
        exact not_begins_append d (List.cons_ne_nil b []) ⟨c, rest, hc⟩
      have hb := hp.begins_iff.1 ⟨c, rest, hc⟩
      cases hmore : p.more with
      | zero =>
        obtain ⟨d, hd⟩ := hp.exists_char (.last hb hmore)
        exact absurd hd (hopen d)
      | succ more => exact ⟨_, .next hp (feed_within hb hmore)⟩

/-! ## Decoding -/

theorem decode_of_shows {bs : List UInt8} {cs : List (Option Char)} (h : Shows bs cs) : decode bs = cs := by
  unfold decode
  induction h with
  | nil => rfl
  | char c _ ih => rw [decodeFrom_char, ih]
  | @stray b bs cs hb _ ih =>
    have hlead : lead b.toNat = ([none], none) := by
      rcases lead_cases b with ⟨c, -, hc⟩ | hnone | ⟨p, hp⟩
      · exact absurd ⟨c, [], by rw [hc, List.append_nil]⟩ hb
      · exact hnone
      · exact absurd (Reads.lead hp).begins.1 hb
    rw [decodeFrom, feed, hlead, ih]
    rfl
  | @broken start bs cs hne hstart hopen hstop _ ih =>
    obtain ⟨p, hp⟩ := exists_reads hne hstart hopen
    rw [hp.decodeFrom_append]
    cases bs with
    | nil =>
      rw [← ih]
      rfl
    | cons b bs =>
      have hb : ¬ (p.low ≤ b.toNat ∧ b.toNat ≤ p.high) := fun hb => hstop b rfl (hp.begins_iff.2 hb)
      rw [decodeFrom, feed_beyond hb, ← ih]
      rfl

/-- After what is read of a character under way, the bytes are shown as decoding tells. -/
theorem shows_decodeFrom (bs : List UInt8) :
    Shows bs (decodeFrom none bs) ∧ ∀ p start, Reads p start → Shows (start ++ bs) (decodeFrom (some p) bs) := by
  induction bs with
  | nil =>
    refine ⟨.nil, fun p start h => ?_⟩
    obtain ⟨hbegins, hopen⟩ := h.begins
    exact .broken h.ne_nil hbegins hopen (by simp) .nil
  | cons b bs ih =>
    obtain ⟨ihnone, ihsome⟩ := ih
    have hnone : Shows (b :: bs) (decodeFrom none (b :: bs)) := by
      rw [decodeFrom, feed]
      rcases lead_cases b with ⟨c, hlead, hc⟩ | hlead | ⟨p, hlead⟩
      · rw [hlead, ← List.singleton_append, ← hc]
        exact .char c ihnone
      · rw [hlead]
        exact .stray (not_begins_of_lead hlead) ihnone
      · rw [hlead]
        exact ihsome p [b] (.lead hlead)
    refine ⟨hnone, fun p start h => ?_⟩
    by_cases hb : p.low ≤ b.toNat ∧ b.toNat ≤ p.high
    · rw [decodeFrom, ← List.singleton_append, ← List.append_assoc]
      cases hmore : p.more with
      | zero =>
        obtain ⟨c, hc⟩ := h.exists_char (.last hb hmore)
        have hshown : feed (some p) b.toNat = ([some c], none) := by
          have hdecode := h.decodeFrom_append [b]
          have hlast : decodeFrom (some p) [b] = [some (Char.ofNat (p.bits * 64 + b.toNat % 64))] := by
            rw [decodeFrom, feed_last hb hmore]
            rfl
          rw [← hc, ← List.append_nil (String.utf8EncodeChar c), decodeFrom_char, hlast] at hdecode
          rw [feed_last hb hmore]
          exact congrArg (·, none) hdecode.symm
        rw [hshown, ← hc]
        exact .char c ihnone
      | succ more =>
        have hfeed := feed_within hb hmore
        rw [hfeed]
        exact ihsome _ _ (.next h hfeed)
    · obtain ⟨hbegins, hopen⟩ := h.begins
      have hstop : ∀ d ∈ (b :: bs).head?, ¬ Begins (start ++ [d]) := by
        rintro d ⟨⟩
        exact mt h.begins_iff.1 hb
      have hgap : decodeFrom (some p) (b :: bs) = none :: decodeFrom none (b :: bs) := by
        rw [decodeFrom, decodeFrom, feed_beyond hb]
        rfl
      rw [hgap]
      exact .broken h.ne_nil hbegins hopen hstop hnone

/-- Decoding shows the characters and gaps of bytes. -/
theorem shows_iff {bs : List UInt8} {cs : List (Option Char)} : Shows bs cs ↔ decode bs = cs := by
  constructor
  · exact decode_of_shows
  · rintro rfl
    exact (shows_decodeFrom bs).1

end ScriptedModel.Utf8
