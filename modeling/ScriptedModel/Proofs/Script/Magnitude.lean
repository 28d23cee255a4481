/-
Numbers of any size. A numeral may be as long as it likes. It is read up to a ceiling, digit by digit, and
then brought within the bounds of its operand; since these lie far below the ceiling, what remains is as if
the number had been read exactly.

Main statement: the settings that a script makes are the exact numbers of its numerals, cut at the bounds
and in order, pauses are drawn from just the range between them, and whether a script parses does not
depend on how large its numbers are.
-/
import ScriptedModel.Proofs.Script.Printing
import ScriptedModel.Stream.Pacing

namespace ScriptedModel.Script

/-! ## Numerals -/

/-- Whether a text is a numeral. -/
def IsNumeral (ds : List Char) : Prop := ds ≠ [] ∧ ∀ d ∈ ds, d.isDigit = true

instance (ds : List Char) : Decidable (IsNumeral ds) :=
  @instDecidableAnd _ _ inferInstance (List.decidableBAll _ ds)

/-- Texts, each after a gap. -/
inductive Spaced : List (List Char) → List Char → Prop
  | nil : Spaced [] []
  | cons {text gap cs : List Char} {texts : List (List Char)} (hg : IsGap gap) (h : Spaced texts cs) :
    Spaced (text :: texts) (gap ++ (text ++ cs))

/-- The scripts of a keyword, numerals after it, and a statement that says a text. -/
inductive SetsAndSays (k : Keyword) (numerals : List (List Char)) (text : String) : List Char → Prop
  | intro {before word cs rest : List Char} (hb : IsSeparator before) (hw : SpellsKeyword k word)
    (h : Spaced numerals cs) (hr : IsSeparator (rest.take 1)) (hs : Prints [.say text] rest) :
    SetsAndSays k numerals text (before ++ (word ++ (cs ++ rest)))

theorem spellsOperands_of_spaced {numerals : List (List Char)} {cs : List Char} (h : Spaced numerals cs)
    (hnumerals : ∀ ds ∈ numerals, IsNumeral ds) :
    SpellsOperands (numerals.map fun ds => .number (Numeral.value 10 ds)) cs := by
  induction h with
  | nil => exact .nil
  | cons hg h ih =>
    obtain ⟨⟨hne, hdigits⟩, hrest⟩ := List.forall_mem_cons.1 hnumerals
    exact .cons hg (.number hne hdigits) (ih hrest)

/-- What is set is the statement of the keyword and of the exact numbers, within bounds. -/
theorem parseScript_of_setsAndSays (st : Statement) {numerals : List (List Char)} {text script : String}
    (h : SetsAndSays st.keyword numerals text script.toList) (hnumerals : ∀ ds ∈ numerals, IsNumeral ds)
    (hoperands : st.operands = numerals.map fun ds => .number (Numeral.value 10 ds)) (hsilent : st.directive? = none) :
    parseScript script = .ok [⟨.say text, Settings.unset.after st.bounded⟩] := by
  generalize hcs : script.toList = cs at h
  obtain ⟨hb, hw, hspaced, hr, hs⟩ := h
  have hspelled := spellsOperands_of_spaced hspaced hnumerals
  rw [← hoperands] at hspelled
  have hprints : Prints [st, .say text] script.toList := by
    rw [hcs]
    exact .cons hb hw hspelled hr hs
  rw [parseScript_eq_bounded hprints]
  cases st with
  | say content => cases hsilent
  | toolCall toolName arguments => cases hsilent
  | chunkSize size => rfl
  | chunkLatency ms => rfl
  | randomLatency a b => rfl

/-! ## Pauses -/

/-- The pauses that are drawn from a range are those within it, both bounds included. -/
theorem exists_draw_iff {low high : Nat} (h : low ≤ high) (default ms : Nat) :
    (∃ draw, Stream.latency default draw ⟨none, none, some (low, high)⟩ = ms) ↔ low ≤ ms ∧ ms ≤ high := by
  have hdraw : ∀ draw, Stream.latency default draw ⟨none, none, some (low, high)⟩ =
      low + draw % (high - low + 1) := by
    intro draw
    show Stream.drawBetween draw low high = _
    rw [Stream.drawBetween, Nat.min_eq_left h, Nat.max_eq_right h]
  simp only [hdraw]
  constructor
  · rintro ⟨draw, rfl⟩
    have hlt : draw % (high - low + 1) < high - low + 1 := Nat.mod_lt draw (Nat.succ_pos _)
    omega
  · rintro ⟨hlow, hhigh⟩
    refine ⟨ms - low, ?_⟩
    rw [Nat.mod_eq_of_lt (by omega)]
    omega

/-! ## Faults -/

/-- A token with zero for its number, if it is one. -/
def Token.zeroed (t : Token) : Token :=
  match t.kind with
  | .number _ => ⟨.number 0, t.position⟩
  | _ => t

theorem admits_zeroed (kind : ParamKind) (t : Token) : kind.admits t.zeroed.kind = kind.admits t.kind := by
  obtain ⟨k, p⟩ := t
  cases k <;> cases kind <;> rfl

theorem fits_map_zeroed (k : Keyword) (after : List Token) (j : Nat) :
    k.fits (after.map Token.zeroed) j = k.fits after j := by
  unfold Keyword.fits
  rw [List.getElem?_map]
  cases k.operandKinds[j]? with
  | none => rfl
  | some kind =>
    cases after[j]? with
    | none => rfl
    | some t => exact admits_zeroed kind t

/-- What a keyword lacks does not depend on the numbers after it. -/
theorem fault?_verdict_map_zeroed (k : Keyword) (after : List Token) :
    (k.verdict (after.map Token.zeroed)).fault? = (k.verdict after).fault? := by
  unfold Keyword.verdict
  simp only [fits_map_zeroed, List.getElem?_map]
  cases (List.range k.operandKinds.length).find? (fun j => ¬ k.fits after j) with
  | none => rfl
  | some j =>
    dsimp only
    cases after[j]? with
    | none => rfl
    | some t =>
      obtain ⟨kind, p⟩ := t
      cases kind <;> rfl

theorem map_fault?_verdicts_zeroed (ts : List Token) :
    (Window.verdicts (ts.map Token.zeroed)).map (fun v => v.2.fault?) =
      (Window.verdicts ts).map (fun v => v.2.fault?) := by
  induction ts with
  | nil => rfl
  | cons t ts ih =>
    obtain ⟨kind, p⟩ := t
    cases kind with
    | keyword k =>
      show (k.verdict (ts.map Token.zeroed)).fault? :: _ = (k.verdict ts).fault? :: _
      rw [fault?_verdict_map_zeroed, ih]
    | endOfInput => rfl
    | _ => exact ih

/-- Whether tokens parse, and why not, is the same whatever their numbers are. -/
theorem parse_map_zeroed (ts : List Token) (e : ParseError) :
    parse (ts.map Token.zeroed) = .error e ↔ parse ts = .error e := by
  have hfaults : ∀ vs : List (Keyword × Verdict), (vs.filterMap fun v => v.2.fault?) =
      (vs.map fun v => v.2.fault?).filterMap id := by
    intro vs
    rw [List.filterMap_map]
    rfl
  rw [parse, parse, Reading.commands_eq_error, Reading.commands_eq_error, Parser.readTokens, Parser.readTokens,
    Parser.summary_read_idle, Parser.summary_read_idle, Window.judge_snd, Window.judge_snd, hfaults, hfaults,
    map_fault?_verdicts_zeroed]

/-! ## Numbers of any size -/

/-- Numerals of any length are taken for the numbers that they spell: a chunk size of zero for none and any
other for itself or the greatest, a latency for itself or the greatest, two latencies for the range between
them. No number is too large to parse. -/
theorem parseScript_numerals {d d₁ d₂ : List Char} (hd : IsNumeral d) (h₁ : IsNumeral d₁) (h₂ : IsNumeral d₂)
    (text : String) :
    let v := Numeral.value 10 d
    let v₁ := min (Numeral.value 10 d₁) 10000
    let v₂ := min (Numeral.value 10 d₂) 10000
    (∀ script : String, SetsAndSays .chunkSize [d] text script.toList →
      parseScript script = .ok [⟨.say text, ⟨if v = 0 then none else some (min v 1000), none, none⟩⟩]) ∧
    (∀ script : String, SetsAndSays .chunkLatency [d] text script.toList →
      parseScript script = .ok [⟨.say text, ⟨none, some (min v 10000), none⟩⟩]) ∧
    (∀ script : String, SetsAndSays .randomLatency [d₁, d₂] text script.toList →
      parseScript script = .ok [⟨.say text, ⟨none, none, some (min v₁ v₂, max v₁ v₂)⟩⟩] ∧
      ∀ default ms, (∃ draw, Stream.latency default draw ⟨none, none, some (min v₁ v₂, max v₁ v₂)⟩ = ms) ↔
        min v₁ v₂ ≤ ms ∧ ms ≤ max v₁ v₂) ∧
    ∀ ts e, parse (ts.map Token.zeroed) = .error e ↔ parse ts = .error e := by
  intro v v₁ v₂
  refine ⟨fun script h => ?_, fun script h => ?_, fun script h => ⟨?_, fun default ms => ?_⟩, parse_map_zeroed⟩
  · have hparse := parseScript_of_setsAndSays (.chunkSize v) h (by simpa using hd) rfl rfl
    rw [hparse]
    -- The least size is one, so that zero alone is cut to zero.
    by_cases hv : v = 0
    · rw [if_pos hv, hv]
      rfl
    · have hcut : min v 1000 ≠ 0 := by omega
      rw [if_neg hv, Statement.bounded, Settings.after, if_neg hcut]
      rfl
  · exact parseScript_of_setsAndSays (.chunkLatency v) h (by simpa using hd) rfl rfl
  · exact parseScript_of_setsAndSays (.randomLatency (Numeral.value 10 d₁) (Numeral.value 10 d₂)) h
      (by simpa using ⟨h₁, h₂⟩) rfl rfl
  · exact exists_draw_iff (by omega) default ms

/-- A size beyond 64 bits, a latency of zeros, and a range in reverse whose first bound is beyond 64 bits. -/
theorem parseScript_numerals_large :
    let d := "99999999999999999999999".toList
    let d₂ := "0000000000000000000000007".toList
    let say := "\nSAY \"x\"".toList
    let script := String.ofList ("CHUNKSIZE ".toList ++ (d ++ say))
    let script' := String.ofList ("RANDOMLATENCY ".toList ++ (d ++ (' ' :: (d₂ ++ say))))
    IsNumeral d ∧ IsNumeral d₂ ∧ parseScript script = .ok [⟨.say "x", ⟨some 1000, none, none⟩⟩] ∧
      parseScript script' = .ok [⟨.say "x", ⟨none, none, some (7, 10000)⟩⟩] ∧
      ∃ draw, Stream.latency 0 draw ⟨none, none, some (7, 10000)⟩ = 10000 := by
  intro d d₂ say script script'
  have hd : IsNumeral d := by decide
  have hd₂ : IsNumeral d₂ := by decide
  have hsay : Prints [.say "x"] say :=
    @Prints.cons (.say "x") [] ['\n'] "SAY".toList _ [] (by decide) (by decide)
      (@SpellsOperands.cons _ _ [' '] _ _ (by decide) (.text (.itself (by decide) (by decide) .nil)) .nil) (by decide)
      (.nil (by decide))
  have hscript : SetsAndSays .chunkSize [d] "x" script.toList := by
    have hchars : script.toList = [] ++ ("CHUNKSIZE".toList ++ (([' '] ++ (d ++ [])) ++ say)) := by decide
    rw [hchars]
    exact .intro (by decide) (by decide) (.cons (by decide) .nil) (by decide) hsay
  have hscript' : SetsAndSays .randomLatency [d, d₂] "x" script'.toList := by
    have hchars : script'.toList =
        [] ++ ("RANDOMLATENCY".toList ++ (([' '] ++ (d ++ ([' '] ++ (d₂ ++ [])))) ++ say)) := by decide
    rw [hchars]
    exact .intro (by decide) (by decide) (.cons (by decide) (.cons (by decide) .nil)) (by decide) hsay
  obtain ⟨hsize, -, hrange, -⟩ := parseScript_numerals hd hd hd₂ "x"
  obtain ⟨hparse, hdraws⟩ := hrange script' hscript'
  exact ⟨hd, hd₂, hsize script hscript, hparse, (hdraws 0 10000).2 (by decide)⟩

end ScriptedModel.Script
