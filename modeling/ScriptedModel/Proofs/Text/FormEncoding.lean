/-
Names and values in a query. A query is read piece by piece: a plus sign stands for a space, an escape for
its byte, everything else for itself, and what these bytes show is the text.

Main statements: the value of a name is that of the first piece whose name stands for it; and a text that is
written in any of the ways that a query allows is read again, in whichever piece it stands.
-/
import ScriptedModel.Proofs.Text.Gaps
import ScriptedModel.Proofs.Text.Numeral
import ScriptedModel.Proofs.Text.Split
import ScriptedModel.Text.FormEncoding

namespace ScriptedModel.FormEncoding

open Percent (digit? sign unescape)

/-! ## What bytes stand for -/

/-- Whether the first two of some bytes are hexadecimal digits. -/
def StartsWithDigits (bs : List UInt8) : Prop :=
  ∃ b c rest high low, bs = b :: c :: rest ∧ digit? b = some high ∧ digit? c = some low

/-- The bytes of a name or a value, and the bytes that they stand for. -/
inductive Stands : List UInt8 → List UInt8 → Prop
  | nil : Stands [] []
  | plus {bs out : List UInt8} (h : Stands bs out) : Stands (plus :: bs) (space :: out)
  | escape {b c : UInt8} {high low : Nat} {bs out : List UInt8} (hb : digit? b = some high) (hc : digit? c = some low)
    (h : Stands bs out) : Stands (sign :: b :: c :: bs) (UInt8.ofNat (high * 16 + low) :: out)
  | itself {b : UInt8} {bs out : List UInt8} (hplus : b ≠ FormEncoding.plus) (hsign : b = sign → ¬ StartsWithDigits bs)
    (h : Stands bs out) : Stands (b :: bs) (b :: out)

/-- A byte with a space for a plus sign. -/
def spaced (b : UInt8) : UInt8 := if b = plus then space else b

theorem spaced_of_ne {b : UInt8} (h : b ≠ plus) : spaced b = b := if_neg h

theorem digit?_spaced (b : UInt8) : digit? (spaced b) = digit? b := by
  by_cases h : b = plus
  · rw [h]
    decide
  · rw [spaced_of_ne h]

theorem startsWithDigits_map_spaced {bs : List UInt8} (h : StartsWithDigits (bs.map spaced)) : StartsWithDigits bs := by
  obtain ⟨b, c, rest, high, low, hbs, hb, hc⟩ := h
  match bs, hbs with
  | b' :: c' :: rest', hbs =>
    cases hbs
    rw [digit?_spaced] at hb hc
    exact ⟨b', c', rest', high, low, rfl, hb, hc⟩

theorem unescape_escape {b c : UInt8} {high low : Nat} (hb : digit? b = some high) (hc : digit? c = some low)
    (bs : List UInt8) : unescape (sign :: b :: c :: bs) = UInt8.ofNat (high * 16 + low) :: unescape bs := by
  rw [unescape, if_pos rfl, hb, hc]

theorem unescape_itself {b : UInt8} {bs : List UInt8} (h : b = sign → ¬ StartsWithDigits bs) :
    unescape (b :: bs) = b :: unescape bs := by
  match bs with
  | [] => rfl
  | [c] => rfl
  | c :: d :: bs =>
    rw [unescape]
    split
    next hb =>
      split
      next high low hc hd => exact absurd ⟨c, d, bs, high, low, rfl, hc, hd⟩ (h hb)
      next => rfl
    next => rfl

theorem unescape_of_stands {bs out : List UInt8} (h : Stands bs out) : unescape (bs.map spaced) = out := by
  induction h with
  | nil => rfl
  | plus _ ih =>
    rw [List.map_cons]
    show unescape (space :: _) = _
    rw [unescape_itself fun h => absurd h (by decide), ih]
  | escape hb hc _ ih =>
    rw [List.map_cons, List.map_cons, List.map_cons]
    show unescape (sign :: _) = _
    rw [unescape_escape ((digit?_spaced _).trans hb) ((digit?_spaced _).trans hc), ih]
  | itself hplus hsign _ ih =>
    rw [List.map_cons, spaced_of_ne hplus, unescape_itself fun hb => mt startsWithDigits_map_spaced (hsign hb), ih]

theorem exists_stands (bs : List UInt8) : ∃ out, Stands bs out := by
  -- An escape takes three bytes at once.
  induction hn : bs.length using Nat.strongRecOn generalizing bs with
  | _ n ih =>
    cases bs with
    | nil => exact ⟨[], .nil⟩
    | cons b bs =>
      subst hn
      obtain ⟨out, hout⟩ := ih bs.length (Nat.lt_succ_self _) bs rfl
      by_cases hplus : b = plus
      · exact ⟨space :: out, hplus ▸ .plus hout⟩
      by_cases hsign : b = sign → ¬ StartsWithDigits bs
      · exact ⟨b :: out, .itself hplus hsign hout⟩
      · obtain ⟨rfl, c, d, rest, high, low, rfl, hc, hd⟩ : b = sign ∧ StartsWithDigits bs := by
          simpa using hsign
        obtain ⟨out, hout⟩ := ih rest.length (by simp only [List.length_cons]; omega) rest rfl
        exact ⟨_, .escape hc hd hout⟩

theorem stands_iff {bs out : List UInt8} : Stands bs out ↔ unescape (bs.map spaced) = out := by
  constructor
  · exact unescape_of_stands
  · rintro rfl
    obtain ⟨out, hout⟩ := exists_stands bs
    rwa [unescape_of_stands hout]

/-! ## What a name or a value means -/

/-- The text of a name or a value: what the bytes show that its bytes stand for, with the replacement
character for each gap. -/
def Means (cs : List Char) (text : String) : Prop :=
  ∃ bytes shown, Stands (Utf8.encode cs) bytes ∧ Utf8.Shows bytes shown ∧
    text = String.ofList (shown.map fun c => c.getD '\uFFFD')

theorem means_iff {cs : List Char} {text : String} : Means cs text ↔ component cs = text := by
  constructor
  · rintro ⟨bytes, shown, hbytes, hshown, rfl⟩
    rw [component, Utf8.decodeLossy, ← Utf8.shows_iff.1 hshown, ← stands_iff.1 hbytes]
    rfl
  · rintro rfl
    exact ⟨_, _, stands_iff.2 rfl, Utf8.shows_iff.2 rfl, rfl⟩

/-- The name and the value of a piece: what is before and after its first equals sign. -/
inductive Spells : List Char → String → String → Prop
  | around {before after : List Char} {name value : String} (hbefore : '=' ∉ before) (hname : Means before name)
    (hvalue : Means after value) : Spells (before ++ '=' :: after) name value
  | alone {before : List Char} {name : String} (hbefore : '=' ∉ before) (hname : Means before name) :
    Spells before name ""

theorem spells_iff {piece : List Char} {name value : String} :
    Spells piece name value ↔ pair piece = (name, value) := by
  constructor
  · intro h
    cases h with
    | around hbefore hname hvalue =>
      rw [pair, Split.atFirst?_append hbefore]
      exact Prod.ext (means_iff.1 hname) (means_iff.1 hvalue)
    | alone hbefore hname =>
      rw [pair, Split.atFirst?_of_notMem hbefore]
      exact Prod.ext (means_iff.1 hname) rfl
  · intro h
    by_cases hmem : '=' ∈ piece
    · obtain ⟨before, after, rfl, hbefore⟩ := List.eq_append_cons_of_mem hmem
      rw [pair, Split.atFirst?_append hbefore] at h
      obtain ⟨rfl, rfl⟩ := Prod.mk.inj h
      exact .around hbefore (means_iff.2 rfl) (means_iff.2 rfl)
    · rw [pair, Split.atFirst?_of_notMem hmem] at h
      obtain ⟨rfl, rfl⟩ := Prod.mk.inj h
      exact .alone hmem (means_iff.2 rfl)

/-! ## What a query tells -/

/-- The queries that tell a value of a name: in the first piece that has the name. -/
inductive Tells (name value : String) : List Char → Prop
  | here {piece rest : List Char} (hpiece : '&' ∉ piece) (hne : piece ≠ []) (hrest : ∀ c ∈ rest.head?, c = '&')
    (h : Spells piece name value) : Tells name value (piece ++ rest)
  | later {piece rest : List Char} (hpiece : '&' ∉ piece) (hother : piece ≠ [] → ∀ v, ¬ Spells piece name v)
    (h : Tells name value rest) : Tells name value (piece ++ '&' :: rest)

section Pieces

variable {piece rest cs : List Char} {name value : String}

theorem value?_last (h : '&' ∉ piece) (name : String) :
    value? (String.ofList piece) name =
      if piece ≠ [] ∧ (pair piece).1 = name then some (pair piece).2 else none := by
  rw [value?, pairs, String.toList_ofList, Split.pieces_of_notMem h]
  by_cases hne : piece = []
  · simp [hne]
  · by_cases hname : (pair piece).1 = name <;> simp [hne, hname]

theorem value?_cons (h : '&' ∉ piece) (rest : List Char) (name : String) :
    value? (String.ofList (piece ++ '&' :: rest)) name =
      if piece ≠ [] ∧ (pair piece).1 = name then some (pair piece).2 else value? (String.ofList rest) name := by
  rw [value?, pairs, value?, pairs, String.toList_ofList, String.toList_ofList, Split.pieces_append h]
  by_cases hne : piece = []
  · simp [hne]
  · by_cases hname : (pair piece).1 = name <;> simp [hne, hname]

theorem not_spells_iff : (∀ v, ¬ Spells piece name v) ↔ (pair piece).1 ≠ name := by
  constructor
  · intro h hname
    exact h (pair piece).2 (spells_iff.2 (Prod.ext hname rfl))
  · intro h v hv
    exact h (congrArg Prod.fst (spells_iff.1 hv))

theorem value?_of_tells (h : Tells name value cs) : value? (String.ofList cs) name = some value := by
  induction h with
  | @here piece rest hpiece hne hrest h =>
    have hpair := spells_iff.1 h
    have hnamed : piece ≠ [] ∧ (pair piece).1 = name := ⟨hne, by rw [hpair]⟩
    cases rest with
    | nil => rw [List.append_nil, value?_last hpiece, if_pos hnamed, hpair]
    | cons c rest =>
      obtain rfl := hrest c rfl
      rw [value?_cons hpiece, if_pos hnamed, hpair]
  | later hpiece hother _ ih =>
    rw [value?_cons hpiece, if_neg fun hnamed => not_spells_iff.1 (hother hnamed.1) hnamed.2, ih]

theorem tells_of_value? (h : value? (String.ofList cs) name = some value) : Tells name value cs := by
  induction cs using Split.induction_pieces (c := '&') with
  | last piece hpiece =>
    rw [value?_last hpiece] at h
    split at h
    next hnamed =>
      rw [← List.append_nil piece]
      exact .here hpiece hnamed.1 (by simp) (spells_iff.2 (Prod.ext hnamed.2 (Option.some.inj h)))
    next => cases h
  | further piece rest hpiece ih =>
    rw [value?_cons hpiece] at h
    split at h
    next hnamed =>
      exact .here hpiece hnamed.1 (by simp) (spells_iff.2 (Prod.ext hnamed.2 (Option.some.inj h)))
    next hother =>
      exact .later hpiece (fun hne => not_spells_iff.2 fun hname => hother ⟨hne, hname⟩) (ih h)

end Pieces

/-- The value of a name is the one that the query tells. -/
theorem value?_eq_some_iff {query name value : String} :
    value? query name = some value ↔ Tells name value query.toList := by
  rw [← String.ofList_toList (s := query), String.toList_ofList]
  exact ⟨tells_of_value?, value?_of_tells⟩

/-! ## Writing -/

/-- The escapes of bytes, with digits of either case. -/
inductive Escapes : List UInt8 → List Char → Prop
  | nil : Escapes [] []
  | cons {b : UInt8} {high low : Char} {bs : List UInt8} {cs : List Char} (hhigh : Numeral.isDigit 16 high = true)
    (hlow : Numeral.isDigit 16 low = true) (hb : b.toNat = Numeral.digitValue high * 16 + Numeral.digitValue low)
    (h : Escapes bs cs) : Escapes (b :: bs) ('%' :: high :: low :: cs)

/-- The ways in which a text can be written in a query. -/
inductive Writes : List Char → List Char → Prop
  | nil : Writes [] []
  | itself {c : Char} {text cs : List Char} (hc : c ∉ ['+', '%', '&']) (h : Writes text cs) :
    Writes (c :: text) (c :: cs)
  | plus {text cs : List Char} (h : Writes text cs) : Writes (' ' :: text) ('+' :: cs)
  | escaped {c : Char} {text es cs : List Char} (hc : Escapes (String.utf8EncodeChar c) es) (h : Writes text cs) :
    Writes (c :: text) (es ++ cs)

theorem utf8EncodeChar_of_lt {c : Char} (h : c.toNat < 0x80) : String.utf8EncodeChar c = [UInt8.ofNat c.toNat] := by
  have hb : (UInt8.ofNat c.toNat).toNat = c.toNat := by
    rw [UInt8.toNat_ofNat']
    omega
  have hone := Utf8.exists_char_one (b := UInt8.ofNat c.toNat) (by omega)
  rwa [hb, Char.ofNat_toNat] at hone

/-- A character of several bytes has none of the bytes of a character of one. -/
theorem toNat_of_mem_utf8EncodeChar {c : Char} (h : 0x80 ≤ c.toNat) {b : UInt8} (hb : b ∈ String.utf8EncodeChar c) :
    0x80 ≤ b.toNat := by
  have hval : c.val.toNat = c.toNat := rfl
  have hbyte : ∀ n, 0x80 ≤ n → n < 256 → 0x80 ≤ (UInt8.ofNat n).toNat := by
    intro n hlow hhigh
    rw [UInt8.toNat_ofNat']
    omega
  unfold String.utf8EncodeChar at hb
  simp only [hval] at hb
  split at hb
  · omega
  · split at hb
    · simp only [List.mem_cons, List.not_mem_nil, or_false] at hb
      rcases hb with rfl | rfl <;> exact hbyte _ (by omega) (by omega)
    · split at hb
      · simp only [List.mem_cons, List.not_mem_nil, or_false] at hb
        rcases hb with rfl | rfl | rfl <;> exact hbyte _ (by omega) (by omega)
      · simp only [List.mem_cons, List.not_mem_nil, or_false] at hb
        rcases hb with rfl | rfl | rfl | rfl <;> exact hbyte _ (by omega) (by omega)

theorem Stands.append_itself {bytes bs out : List UInt8}
    (hbytes : ∀ b ∈ bytes, b ≠ FormEncoding.plus ∧ b ≠ sign)
    (h : Stands bs out) : Stands (bytes ++ bs) (bytes ++ out) := by
  induction bytes with
  | nil => exact h
  | cons b bytes ih =>
    obtain ⟨⟨hplus, hsign⟩, hrest⟩ := List.forall_mem_cons.1 hbytes
    exact .itself hplus (fun hb => absurd hb hsign) (ih hrest)

/-- A character that neither stands for a space nor starts an escape stands for itself. -/
theorem bytes_of_itself {c : Char} (hplus : c ≠ '+') (hsign : c ≠ '%') :
    ∀ b ∈ String.utf8EncodeChar c, b ≠ plus ∧ b ≠ sign := by
  intro b hb
  by_cases hc : c.toNat < 0x80
  · rw [utf8EncodeChar_of_lt hc, List.mem_singleton] at hb
    have hnat : b.toNat = c.toNat := by
      rw [hb, UInt8.toNat_ofNat']
      omega
    refine ⟨fun h => hplus ?_, fun h => hsign ?_⟩
    all_goals
      rw [← Char.toNat_inj, ← hnat, h]
      rfl
  · have hlarge := toNat_of_mem_utf8EncodeChar (Nat.le_of_not_lt hc) hb
    refine ⟨fun h => ?_, fun h => ?_⟩
    all_goals
      rw [h] at hlarge
      exact absurd hlarge (by decide)

theorem toNat_of_isDigit {c : Char} (h : Numeral.isDigit 16 c = true) : c.toNat < 0x80 := by
  rw [Numeral.isDigit, decide_eq_true_iff, Numeral.digitValue] at h
  split at h
  next hdigit =>
    have hle : c.toNat ≤ 57 := (by simpa [Char.isDigit] using hdigit : 48 ≤ c.val ∧ c.val ≤ 57).2
    omega
  next =>
    split at h
    next hletter =>
      have hle : c.toNat ≤ 'z'.toNat := hletter.2
      exact Nat.lt_of_le_of_lt hle (by decide)
    next =>
      split at h
      next hletter =>
        have hle : c.toNat ≤ 'Z'.toNat := hletter.2
        exact Nat.lt_of_le_of_lt hle (by decide)
      next => omega

theorem digit?_of_isDigit {c : Char} (h : Numeral.isDigit 16 c = true) :
    digit? (UInt8.ofNat c.toNat) = some (Numeral.digitValue c) := by
  have hb : (UInt8.ofNat c.toNat).toNat = c.toNat := by
    rw [UInt8.toNat_ofNat']
    have := toNat_of_isDigit h
    omega
  rw [digit?, hb, Char.ofNat_toNat, if_pos h]

theorem Stands.append_escapes {bytes bs out : List UInt8} {es : List Char} (he : Escapes bytes es)
    (h : Stands bs out) : Stands (Utf8.encode es ++ bs) (bytes ++ out) := by
  induction he with
  | nil => exact h
  | @cons b high low bytes es hhigh hlow hb he ih =>
    have hbytes : Utf8.encode ('%' :: high :: low :: es) ++ bs =
        sign :: UInt8.ofNat high.toNat :: UInt8.ofNat low.toNat :: (Utf8.encode es ++ bs) := by
      show (String.utf8EncodeChar '%' ++
        (String.utf8EncodeChar high ++ (String.utf8EncodeChar low ++ Utf8.encode es))) ++ bs = _
      rw [utf8EncodeChar_of_lt (toNat_of_isDigit hhigh), utf8EncodeChar_of_lt (toNat_of_isDigit hlow)]
      rfl
    have hbyte : b = UInt8.ofNat (Numeral.digitValue high * 16 + Numeral.digitValue low) := by
      rw [← hb, UInt8.ofNat_toNat]
    rw [hbytes, hbyte]
    exact .escape (digit?_of_isDigit hhigh) (digit?_of_isDigit hlow) ih

section Writes

variable {text cs : List Char}

theorem stands_of_writes (h : Writes text cs) : Stands (Utf8.encode cs) (Utf8.encode text) := by
  have hcons : ∀ c cs, Utf8.encode (c :: cs) = String.utf8EncodeChar c ++ Utf8.encode cs := fun _ _ => List.flatMap_cons
  induction h with
  | nil => exact .nil
  | itself hc _ ih =>
    rw [hcons, hcons]
    simp only [List.mem_cons, not_or] at hc
    exact .append_itself (bytes_of_itself hc.1 hc.2.1) ih
  | plus _ ih => exact .plus ih
  | escaped hc _ ih =>
    rw [hcons, Utf8.encode, List.flatMap_append]
    exact .append_escapes hc ih

/-- What is written is read again. -/
theorem means_of_writes (h : Writes text cs) : Means cs (String.ofList text) := by
  refine ⟨_, _, stands_of_writes h, Utf8.shows_iff.2 (Utf8.decode_encode text), ?_⟩
  rw [List.map_map]
  exact congrArg String.ofList (List.map_id text).symm

theorem notMem_of_writes (h : Writes text cs) : '&' ∉ cs := by
  have hescapes : ∀ {bytes es}, Escapes bytes es → '&' ∉ es := by
    intro bytes es he
    induction he with
    | nil => simp
    | cons hhigh hlow _ _ ih =>
      simp only [List.mem_cons, not_or]
      refine ⟨by decide, ?_, ?_, ih⟩
      · rintro rfl
        exact absurd hhigh (by decide)
      · rintro rfl
        exact absurd hlow (by decide)
  induction h with
  | nil => simp
  | itself hc _ ih =>
    simp only [List.mem_cons, not_or] at hc ⊢
    exact ⟨fun h => hc.2.2.1 h.symm, ih⟩
  | plus _ ih =>
    simp only [List.mem_cons, not_or]
    exact ⟨by decide, ih⟩
  | escaped hc _ ih =>
    rw [List.mem_append, not_or]
    exact ⟨hescapes hc, ih⟩

end Writes

/-- A parameter is told wherever it stands, if no piece before it has its name. -/
theorem tells_of_writes {name value : List Char} {n v : List Char} (hn : Writes name n) (hname : '=' ∉ n)
    (hv : Writes value v) {before : List (List Char)}
    (hbefore : ∀ piece ∈ before, '&' ∉ piece ∧ (piece ≠ [] → ∀ u, ¬ Spells piece (String.ofList name) u))
    (after : List (List Char)) :
    Tells (String.ofList name) (String.ofList value) (['&'].intercalate (before ++ (n ++ '=' :: v) :: after)) := by
  have hpiece : '&' ∉ n ++ '=' :: v := by
    rw [List.mem_append, List.mem_cons]
    rintro (h | h | h)
    · exact notMem_of_writes hn h
    · cases h
    · exact notMem_of_writes hv h
  have hspells : Spells (n ++ '=' :: v) (String.ofList name) (String.ofList value) :=
    .around hname (means_of_writes hn) (means_of_writes hv)
  induction before with
  | nil =>
    rw [List.nil_append]
    cases after with
    | nil =>
      rw [List.intercalate_singleton, ← List.append_nil (n ++ '=' :: v)]
      exact .here hpiece (by simp) (by simp) hspells
    | cons next after =>
      rw [List.intercalate_cons_cons, List.append_assoc]
      exact .here hpiece (by simp) (by simp) hspells
  | cons piece before ih =>
    obtain ⟨⟨hmem, hother⟩, hrest⟩ := List.forall_mem_cons.1 hbefore
    rw [List.cons_append, List.intercalate_cons_of_ne_nil (by simp), List.append_assoc]
    exact .later hmem hother (ih hrest)

/-! ## What clients write -/

theorem padded_two {n : Nat} (h : n < 256) :
    Numeral.padded 16 2 n = [Nat.digitChar (n / 16), Nat.digitChar (n % 16)] := by
  rw [Numeral.padded]
  by_cases hn : n < 16
  · rw [Numeral.digits_of_lt hn, Nat.div_eq_of_lt hn, Nat.mod_eq_of_lt hn]
    rfl
  · rw [Numeral.digits_of_le (by omega) (by omega), Numeral.digits_of_lt (by omega)]
    rfl

theorem digitChar_toUpper : ∀ k < 16, Numeral.isDigit 16 (Nat.digitChar k).toUpper = true ∧
    Numeral.digitValue (Nat.digitChar k).toUpper = k ∧ (Nat.digitChar k).toUpper ≠ '=' := by decide

theorem escape_eq (b : UInt8) :
    Percent.escape b = ['%', (Nat.digitChar (b.toNat / 16)).toUpper, (Nat.digitChar (b.toNat % 16)).toUpper] := by
  rw [Percent.escape, padded_two b.toNat_lt]
  rfl

theorem escapes_flatMap_escape (bytes : List UInt8) : Escapes bytes (bytes.flatMap Percent.escape) := by
  induction bytes with
  | nil => exact .nil
  | cons b bytes ih =>
    have hb := b.toNat_lt
    obtain ⟨hhigh, hhighValue, -⟩ := digitChar_toUpper (b.toNat / 16) (by omega)
    obtain ⟨hlow, hlowValue, -⟩ := digitChar_toUpper (b.toNat % 16) (by omega)
    rw [List.flatMap_cons, escape_eq]
    exact .cons hhigh hlow (by omega) ih

/-- What clients write is one of the ways in which a text can be written. -/
theorem writes_encode (text : List Char) : Writes text (encode text) := by
  induction text with
  | nil => exact .nil
  | cons c text ih =>
    rw [encode, List.flatMap_cons]
    by_cases hplain : isPlain c = true
    · rw [if_pos hplain]
      refine .itself ?_ ih
      simp only [List.mem_cons, List.not_mem_nil, or_false]
      rintro (rfl | rfl | rfl) <;> exact absurd hplain (by decide)
    · rw [if_neg hplain]
      by_cases hspace : c = ' '
      · rw [if_pos hspace, hspace]
        exact .plus ih
      · rw [if_neg hspace, Utf8.encode, List.flatMap_singleton]
        exact .escaped (escapes_flatMap_escape _) ih

theorem notMem_encode (text : List Char) : '=' ∉ encode text := by
  intro h
  obtain ⟨c, -, hc⟩ := List.mem_flatMap.1 h
  split at hc
  next hplain =>
    rw [← List.mem_singleton.1 hc] at hplain
    exact absurd hplain (by decide)
  next =>
    split at hc
    next => exact absurd (List.mem_singleton.1 hc) (by decide)
    next =>
      obtain ⟨b, -, hb⟩ := List.mem_flatMap.1 hc
      have hlt := b.toNat_lt
      rw [escape_eq] at hb
      simp only [List.mem_cons, List.not_mem_nil, or_false] at hb
      rcases hb with hb | hb | hb
      · exact absurd hb (by decide)
      · exact (digitChar_toUpper (b.toNat / 16) (by omega)).2.2 hb.symm
      · exact (digitChar_toUpper (b.toNat % 16) (by omega)).2.2 hb.symm

end ScriptedModel.FormEncoding
