/-
One script in two formats. A message keeps its empty texts and a turn drops them, so the two prompts of
the same texts differ by blank lines.

Main statement: both prompts are read alike. The texts read by themselves decide which commands there
are, or which fault, and only the line of the fault tells the formats apart.
-/
import Mathlib.Data.List.Forall2
import ScriptedModel.Proofs.Http.Asking
import ScriptedModel.Proofs.Script.Joining

namespace ScriptedModel.Http

open Script

/-! ## Listing texts -/

/-- The texts of a message. -/
def Content.texts : Content → List String
  | .text t => [t]
  | .parts ps => (ps.filter Part.isText).filterMap Part.text?

/-- The last message by the user lists texts. -/
def ChatRequest.Lists (r : ChatRequest) (texts : List String) : Prop :=
  ∃ before user after, r.messages? = some (before ++ user :: after) ∧ user.role = userRole ∧
    user.content.texts = texts ∧ ∀ m ∈ after, m.role ≠ userRole

/-- The last turn by the user, or by nobody, lists texts. -/
def GenerationRequest.Lists (g : GenerationRequest) (texts : List String) : Prop :=
  ∃ before turn after, g.contents? = some (before ++ turn :: after) ∧ turn.role?.getD userRole = userRole ∧
    turn.parts.reduceOption = texts ∧ ∀ t ∈ after, t.role?.getD userRole ≠ userRole

theorem Content.prompt_eq (c : Content) : c.prompt = "\n".intercalate c.texts := by
  cases c with
  | text t => rw [Content.texts, String.intercalate_singleton]; rfl
  | parts ps => rfl

/-- A turn that names no role is the user's. -/
theorem all_role?_eq (t : Turn) : t.role?.all (fun k => k == userRole) = (t.role?.getD userRole == userRole) := by
  cases t.role? with
  | none => exact (beq_self_eq_true userRole).symm
  | some role => rfl

theorem ChatRequest.Lists.prompt {r : ChatRequest} {texts : List String} (h : r.Lists texts) :
    r.prompt = .ok ("\n".intercalate texts) := by
  obtain ⟨before, user, after, hmessages, huser, rfl, hafter⟩ := h
  rw [prompt_of_messages hmessages huser hafter, Content.prompt_eq]

theorem GenerationRequest.Lists.prompt {g : GenerationRequest} {texts : List String} (h : g.Lists texts) :
    g.prompt = .ok ("\n".intercalate (filled texts)) := by
  obtain ⟨before, turn, after, hcontents, hturn, rfl, hafter⟩ := h
  have hlast : turn.role?.all (fun k => k == userRole) = true := by
    rw [all_role?_eq, hturn]
    exact beq_self_eq_true userRole
  have hlater : ∀ t ∈ after, t.role?.all (fun k => k == userRole) = false := by
    intro t ht
    rw [all_role?_eq]
    exact beq_eq_false_iff_ne.2 (hafter t ht)
  rw [prompt_of_contents hcontents hlast hlater]
  rfl

/-! ## Reading the prompts -/

/-- How the prompts of a chat and of a generation request for texts are read: as what the texts say one
after another, or up to the first that is faulty by itself. -/
inductive Agree (texts : List String) (chat generation : String) : Prop
  | commands {parts : List (List Command)} {cs : List Command}
    (each : List.Forall₂ (fun t cs => parseScript t = .ok cs) texts parts)
    (chat : parseScript chat = .ok cs) (generation : parseScript generation = .ok cs)
    (directives : cs.map Command.directive = parts.flatten.map Command.directive)
  | fault {before after : List String} {t : String} {e : ParseError} {p : Position}
    (split : texts = before ++ t :: after) (first : ∀ b ∈ before, ∃ cs, parseScript b = .ok cs)
    (own : parseScript t = .error e) (column : p.column = e.position.column)
    (generation : parseScript generation = .error ⟨p, e.message⟩)
    (chat : parseScript chat = .error ⟨⟨p.line + before.count "", p.column⟩, e.message⟩)

section Joined

variable {texts : List String}

/-- Texts of which none is faulty say the same with blank lines and without. -/
theorem agree_of_fine (hclosed : ∀ t ∈ texts, IsClosed t)
    (hok : ∀ t ∈ texts, (Parser.readScript t).summary.2 = none) :
    Agree texts ("\n".intercalate texts) ("\n".intercalate (filled texts)) := by
  have hgeneration := parseScript_joined (forall_mem_filled hclosed) (forall_mem_filled hok)
  rw [statementsOf_filled] at hgeneration
  let own (t : String) : List Command := commandsUnder .unset (statementsOf t)
  have heach : List.Forall₂ (fun t cs => parseScript t = .ok cs) texts (texts.map own) := by
    rw [List.forall₂_map_right_iff, List.forall₂_same]
    exact fun t ht => (parseScript_eq_ok t _).2 ⟨hok t ht, rfl⟩
  refine .commands heach (parseScript_joined hclosed hok) hgeneration ?_
  rw [← commandsFrom_eq_commandsUnder, directives_commandsFrom, List.filterMap_flatMap, ← List.flatMap_def,
    List.map_flatMap]
  congr 1
  funext t
  rw [← directives_commandsFrom .unset, commandsFrom_eq_commandsUnder]

/-- A text that is faulty by itself, where none before it is, decides for both. -/
theorem agree_of_fault {before after : List String} {t : String} {e : ParseError}
    (hclosed : ∀ s ∈ before ++ t :: after, IsClosed s)
    (hok : ∀ b ∈ before, (Parser.readScript b).summary.2 = none) (he : (Parser.readScript t).summary.2 = some e) :
    Agree (before ++ t :: after) ("\n".intercalate (before ++ t :: after))
      ("\n".intercalate (filled (before ++ t :: after))) := by
  obtain ⟨hbefore, htafter⟩ := List.forall_mem_append.1 hclosed
  have ht : IsClosed t := htafter t List.mem_cons_self
  -- The empty text is not faulty, so this one is kept in both.
  have hne : t ≠ "" := by
    rintro rfl
    rw [summary_readScript_empty] at he
    cases he
  have hfilled : filled (before ++ t :: after) = filled before ++ t :: filled after := by
    rw [filled, List.filter_append, ← filled, ← filled, filled_cons_of_ne hne]
  have hgeneration := fault_joined (forall_mem_filled hbefore) (forall_mem_filled hok) ht he (filled after)
  have hchat := fault_joined hbefore hok ht he after
  rw [← parseScript_eq_error] at hgeneration hchat
  refine .fault (p := e.position.down (linesOf (filled before))) rfl (fun b hb => ?_)
    ((parseScript_eq_error t e).2 he) rfl ?_ ?_
  · exact ⟨_, (parseScript_eq_ok b _).2 ⟨hok b hb, rfl⟩⟩
  · rw [hfilled]
    exact hgeneration
  · rw [hchat, linesOf_eq_filled before, ← Nat.add_comm (before.count ""), ← ParseError.down_down]
    rfl

end Joined

/-- The prompts of the same texts are read alike in both formats. -/
theorem prompts_agree {texts : List String} (hclosed : ∀ t ∈ texts, IsClosed t) {r : ChatRequest}
    (hr : r.Lists texts) {g : GenerationRequest} (hg : g.Lists texts) :
    ∃ chat generation, r.prompt = .ok chat ∧ g.prompt = .ok generation ∧ Agree texts chat generation := by
  refine ⟨_, _, hr.prompt, hg.prompt, ?_⟩
  rcases exists_first_fault texts with hok | ⟨before, t, after, e, rfl, hok, he⟩
  · exact agree_of_fine hclosed hok
  · exact agree_of_fault hclosed hok he

/-- Texts that are read, some of them empty, and the same before one that is faulty on its second line. -/
theorem prompts_agree_two :
    let fine := ["CHUNKSIZE 2", "", "SAY \"a\nb\"", ""]
    let faulty := fine ++ ["\n SAY", "SAY"]
    let chat (texts : List String) : ChatRequest :=
      ⟨none, some [⟨userRole, .text "SAY"⟩,
        ⟨userRole, .parts (⟨some "image", some "SAY"⟩ :: texts.map fun t => ⟨some "text", some t⟩)⟩,
        ⟨"assistant", .text "SAY"⟩]⟩
    let generation (texts : List String) : GenerationRequest :=
      ⟨some [⟨none, [some "SAY"]⟩, ⟨none, none :: texts.map some⟩, ⟨some "model", [some "SAY"]⟩]⟩
    let fault (line : Nat) : ParseError := ⟨⟨line, 5⟩, "Expected string after SAY"⟩
    (∃ c g, (chat fine).prompt = .ok c ∧ (generation fine).prompt = .ok g ∧ Agree fine c g ∧
      parseScript c = .ok [⟨.say "a\nb", ⟨some 2, none, none⟩⟩] ∧ parseScript g = parseScript c) ∧
    ∃ c g, (chat faulty).prompt = .ok c ∧ (generation faulty).prompt = .ok g ∧ Agree faulty c g ∧
      parseScript c = .error (fault 7) ∧ parseScript g = .error (fault 5) := by
  intro fine faulty chat generation fault
  have hfine : (chat fine).Lists fine ∧ (generation fine).Lists fine :=
    ⟨⟨[_], _, [_], rfl, rfl, by decide, by decide⟩, ⟨[_], _, [_], rfl, rfl, by decide, by decide⟩⟩
  have hfaulty : (chat faulty).Lists faulty ∧ (generation faulty).Lists faulty :=
    ⟨⟨[_], _, [_], rfl, rfl, by decide, by decide⟩, ⟨[_], _, [_], rfl, rfl, by decide, by decide⟩⟩
  obtain ⟨c, g, hc, hg, hagree⟩ := prompts_agree (by decide) hfine.1 hfine.2
  obtain ⟨c', g', hc', hg', hagree'⟩ := prompts_agree (by decide) hfaulty.1 hfaulty.2
  refine ⟨⟨c, g, hc, hg, hagree, ?_, ?_⟩, c', g', hc', hg', hagree', ?_, ?_⟩
  · obtain rfl := Except.ok.inj (hc.symm.trans hfine.1.prompt)
    decide +kernel
  · obtain rfl := Except.ok.inj (hc.symm.trans hfine.1.prompt)
    obtain rfl := Except.ok.inj (hg.symm.trans hfine.2.prompt)
    decide +kernel
  · obtain rfl := Except.ok.inj (hc'.symm.trans hfaulty.1.prompt)
    decide +kernel
  · obtain rfl := Except.ok.inj (hg'.symm.trans hfaulty.2.prompt)
    decide +kernel

end ScriptedModel.Http
