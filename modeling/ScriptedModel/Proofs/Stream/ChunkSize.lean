/-
The size that a text is cut with. Cut with a size of zero, a text is one chunk, and a script that says
zero leaves a command no size, which comes to the same. A command that itself has a size of zero is cut
with one instead, so its text is taken apart into characters.

Main statement: that is the only case in which a text is not cut as its size says, and it makes a
difference for texts of two characters or more. No script leads to it.
-/
import ScriptedModel.Proofs.Script.Image
import ScriptedModel.Proofs.Stream.Units

namespace ScriptedModel.Stream

open Script (Command Settings)

/-! ## Sizes -/

theorem chunkText_zero (text : String) : chunkText text 0 = [text] := if_pos (.inr rfl)

theorem length_chunkText_one (text : String) : (chunkText text 1).length = max 1 text.length := by
  by_cases htext : text = ""
  · rw [htext]
    rfl
  · have hlength : 1 ≤ text.length := Nat.pos_of_ne_zero (mt String.length_eq_zero_iff.1 htext)
    rw [length_chunkText htext Nat.one_pos, Nat.ceilDiv_eq_add_pred_div, Nat.add_sub_cancel, Nat.div_one,
      Nat.max_eq_right hlength]

theorem effectiveSize_zero (text : String) : effectiveSize text (some 0) = 1 := rfl

theorem effectiveSize_of_pos (text : String) {n : Nat} (hn : 0 < n) : effectiveSize text (some n) = n :=
  Nat.max_eq_right hn

/-- A text is cut as its size says unless the size is zero and the text has something to cut. -/
theorem chunkText_effectiveSize_iff (text : String) (c : Option Nat) :
    chunkText text (effectiveSize text c) = chunkText text (c.getD 0) ↔ c ≠ some 0 ∨ text.length ≤ 1 := by
  rcases c with _ | _ | n
  · refine iff_of_true ?_ (.inl nofun)
    rw [chunkText_unset, Option.getD_none, chunkText_zero]
  · rw [effectiveSize_zero, Option.getD_some, chunkText_zero]
    constructor
    · intro h
      have hlength := length_chunkText_one text
      rw [h, List.length_singleton] at hlength
      exact .inr (by omega)
    · rintro (hne | hshort)
      · exact absurd rfl hne
      · exact chunkText_of_length_le hshort
  · refine iff_of_true ?_ (.inl (by simp))
    rw [effectiveSize_of_pos text n.succ_pos, Option.getD_some]

/-! ## Responses -/

/-- A command with a size of one where its size is zero. -/
def atLeastOne (c : Command) : Command := { c with settings.chunkSize := c.settings.chunkSize.map (max 1) }

theorem effectiveSize_map (text : String) (c : Option Nat) : effectiveSize text (c.map (max 1)) = effectiveSize text c := by
  cases c with
  | none => rfl
  | some n =>
    show max 1 (max 1 n) = max 1 n
    omega

section Walk

variable {σ : Type} [Framer σ] (x : Context)

theorem commandActions_atLeastOne (provider : Provider) (p : Progress σ) (isLast : Bool) (c : Command) :
    commandActions x provider p isLast (atLeastOne c) = commandActions x provider p isLast c := by
  obtain ⟨content | ⟨toolName, arguments⟩, settings⟩ := c
  · simp only [commandActions, atLeastOne, effectiveSize_map, latency]
  · simp only [commandActions, atLeastOne, effectiveSize_map]

theorem commandsActions_atLeastOne (provider : Provider) (p : Progress σ) (cs : List Command) :
    commandsActions x provider p (cs.map atLeastOne) = commandsActions x provider p cs := by
  induction cs generalizing p with
  | nil => rfl
  | cons c cs ih => simp only [List.map_cons, commandsActions, List.isEmpty_map, commandActions_atLeastOne, ih]

/-- A response has a size of zero for one of one. -/
theorem schedule_atLeastOne (s : σ) (cs : List Command) : schedule x s (cs.map atLeastOne) = schedule x s cs := by
  rw [schedule, schedule, List.isEmpty_map, commandsActions_atLeastOne]

end Walk

theorem length_units_say (x : Context) (text : String) (s : Settings) :
    (units x [⟨.say text, s⟩]).length = (chunkText text (effectiveSize text s.chunkSize)).length := by
  rw [units, length_place, List.flatMap_singleton, matter, List.length_map]

/-- A text is one unit for whoever says zero in a script, and one for each character where the command has
a size of zero, which is taken for a size of one. -/
theorem cut_sizes {σ : Type} [Framer σ] (x : Context) (framer : σ) (cs : List Command) (s : Settings) (text : String)
    (c : Option Nat) :
    (chunkText text (effectiveSize text c) = chunkText text (c.getD 0) ↔ c ≠ some 0 ∨ text.length ≤ 1) ∧
      chunkText text 0 = [text] ∧
      (units x [⟨.say text, s.after (.chunkSize 0)⟩]).length = 1 ∧
      (units x [⟨.say text, { s with chunkSize := some 0 }⟩]).length = max 1 text.length ∧
      schedule x framer cs = schedule x framer (cs.map atLeastOne) := by
  refine ⟨chunkText_effectiveSize_iff text c, chunkText_zero text, ?_, ?_, (schedule_atLeastOne x framer cs).symm⟩
  · rw [length_units_say]
    exact congrArg List.length (chunkText_unset text)
  · rw [length_units_say]
    exact length_chunkText_one text

/-- Three characters with a size of zero are three chunks instead of one, and streamed as three documents. -/
theorem cut_sizes_three :
    let c : Command := ⟨.say "abc", ⟨some 0, none, none⟩⟩
    chunkText "abc" (effectiveSize "abc" c.settings.chunkSize) ≠ chunkText "abc" (c.settings.chunkSize.getD 0) ∧
      ∀ x : Context, (perform (Collector.empty none) (Provider.gemini.schedule x "" [c])).taken = 3 := by
  intro c
  refine ⟨by rw [ne_eq, chunkText_effectiveSize_iff]; decide, fun x => ?_⟩
  have hunits : units x [c] = [.text ⟨"a", true, false⟩, .text ⟨"b", false, false⟩, .text ⟨"c", false, true⟩] := by
    simp [units, matter, c, chunkText, effectiveSize, pieces, place]
  rw [(Collector.perform_unlimited _).taken, Provider.schedule, frames_schedule x _ (List.cons_ne_nil _ _), hunits]
  rfl

/-- Whatever a script says, its commands are cut as their sizes say. -/
theorem chunkText_of_parseScript {script : String} {cs : List Command} (h : Script.parseScript script = .ok cs)
    {c : Command} (hc : c ∈ cs) (text : String) :
    chunkText text (effectiveSize text c.settings.chunkSize) = chunkText text (c.settings.chunkSize.getD 0) := by
  obtain ⟨-, rfl⟩ := (Script.parseScript_eq_ok script cs).1 h
  rw [← Script.commandsFrom_eq_commandsUnder] at hc
  have hbounds := Script.inBounds_commandsFrom (Script.inBounds_statementsOf script) Settings.inBounds_unset c hc
  rw [chunkText_effectiveSize_iff]
  refine .inl fun hzero => ?_
  have := hbounds.chunkSize 0 hzero
  omega

end ScriptedModel.Stream
