/-
What is read of scripts that stand one after another. A statement that lacks an operand at the end of
the first is faulty whether a line feed or nothing follows, and a fault ends all reading; so the second
is read as by itself, after what the first establishes.

Main statement: two scripts on lines of their own have the fault of the first, if there is one; else
the fault of the second, further down by the lines of the first; else the commands of both, those of
the second under what it establishes itself and for the rest under what is in force where the first
ends.
-/
import ScriptedModel.Proofs.Script.Lines

namespace ScriptedModel.Script

/-! ## Readings one after another -/

namespace Reading

/-- A reading and, unless it ends with a fault, another after it. -/
def andThen (r later : Reading) : Reading :=
  match r.fault? with
  | some _ => r
  | none => later.after r.entries

theorem after_andThen (es : List Entry) (r later : Reading) : (r.after es).andThen later = (r.andThen later).after es := by
  obtain ⟨entries, fault⟩ := r
  rcases fault with _ | e
  · simp [andThen, after]
  · rfl

theorem summary_andThen_fault {r : Reading} {e : ParseError} (h : r.summary.2 = some e) (later : Reading) :
    (r.andThen later).summary.2 = some e := by
  unfold andThen
  rw [show r.fault? = some e from h]
  exact h

theorem summary_andThen {r : Reading} (h : r.summary.2 = none) (later : Reading) :
    (r.andThen later).summary = (r.summary.1 ++ later.summary.1, later.summary.2) := by
  unfold andThen
  rw [show r.fault? = none from h]
  simp [summary, statements, after]

end Reading

namespace Parser

/-- What a token that is not invalid does to a statement in the making. -/
theorem read_reading (p : Position) (w : Pending) {t : Token} (ht : ∀ text, t.kind ≠ .invalid text) (ts : List Token) :
    read (.reading p w) (t :: ts) = match w.take t.kind with
      | some (.pending w', es) => (read (.reading p w') ts).after es
      | some (.complete st, es) => (read .idle ts).after (es ++ [.statement st])
      | none => .faulty t.position w.complaint := by
  obtain ⟨kind, q⟩ := t
  cases kind with
  | invalid text => exact absurd rfl (ht text)
  | _ => rfl

/-- A line feed where a script would end is where another begins. -/
theorem read_append_newline (s : State) {ts : List Token} (hts : ∀ t ∈ ts, t.isEnd = false) (p : Position)
    (us : List Token) :
    read s (ts ++ ⟨.newline, p⟩ :: us) = (read s (ts ++ [⟨.endOfInput, p⟩])).andThen (read .idle us) := by
  induction ts generalizing s with
  | nil =>
    -- Neither the end nor a line feed is an operand, and both are complained of in the same words.
    rcases s with _ | ⟨q, w⟩
    · rfl
    · cases w <;> rfl
  | cons t ts ih =>
    have ih' := fun s => ih s fun x hx => hts x (List.mem_cons_of_mem t hx)
    have hend := hts t List.mem_cons_self
    rw [List.cons_append, List.cons_append]
    rcases s with _ | ⟨q, w⟩
    · obtain ⟨kind, q⟩ := t
      cases kind with
      | endOfInput => cases hend
      | newline => exact ih' .idle
      | keyword k => exact ih' (.reading q (.ofKeyword k))
      | _ =>
        simp only [read]
        rw [Reading.after_andThen, ih']
    · by_cases ht : ∃ text, t.kind = .invalid text
      · obtain ⟨text, ht⟩ := ht
        simp only [read, ht]
        rw [Reading.after_andThen, ih']
      · rw [not_exists] at ht
        rw [read_reading q w ht, read_reading q w ht]
        rcases w.take t.kind with _ | ⟨w' | st, es⟩
        · rfl
        · simp only
          rw [Reading.after_andThen, ih']
        · simp only
          rw [Reading.after_andThen, ih']

/-- The state of the parser many lines further down. -/
def State.down (n : Nat) : State → State
  | .idle => .idle
  | .reading p w => .reading (p.down n) w

theorem ne_endOfInput_of_take {w : Pending} {kind : Token.Kind} {g : Pending.Progress} {es : List Entry}
    (h : w.take kind = some (g, es)) : kind ≠ .endOfInput := by
  rintro rfl
  cases w <;> cases h

/-- Reading tokens further down completes the same statements, and finds the same fault further down. -/
theorem summary_read_down (n : Nat) (s : State) {ts : List Token} (hts : ∃ t ∈ ts, t.isEnd = true) :
    (read (s.down n) (ts.map (Token.down n))).summary =
      ((read s ts).summary.1, (read s ts).summary.2.map (ParseError.down n)) := by
  induction ts generalizing s with
  | nil =>
    obtain ⟨t, ht, -⟩ := hts
    cases ht
  | cons t ts ih =>
    obtain ⟨kind, p⟩ := t
    -- Nothing after the end is looked at, and before it there are more tokens.
    have hlater : kind ≠ .endOfInput → ∃ t ∈ ts, t.isEnd = true := by
      intro hkind
      obtain ⟨t, ht, hend⟩ := hts
      rcases List.mem_cons.1 ht with rfl | ht
      · exact absurd (of_decide_eq_true hend) hkind
      · exact ⟨t, ht, hend⟩
    rw [List.map_cons]
    rcases s with _ | ⟨q, w⟩
    · cases kind with
      | endOfInput => rfl
      | newline => exact ih .idle (hlater (by simp))
      | keyword k => exact ih (.reading p (.ofKeyword k)) (hlater (by simp))
      | _ =>
        show (Reading.after _ _).summary = ((Reading.after _ _).summary.1, (Reading.after _ _).summary.2.map _)
        rw [Reading.summary_after_remarks (by simp), Reading.summary_after_remarks (by simp)]
        exact ih .idle (hlater (by simp))
    · by_cases hinvalid : ∃ text, kind = .invalid text
      · obtain ⟨text, rfl⟩ := hinvalid
        rw [State.down, summary_read_invalid q ts rfl, summary_read_invalid (q.down n) _ rfl]
        exact ih .idle (hlater (by simp))
      rw [not_exists] at hinvalid
      rcases htake : w.take kind with _ | ⟨w' | st, es⟩
      · rw [State.down, summary_read_faulty q ts htake hinvalid, summary_read_faulty (q.down n) _ htake hinvalid]
        rfl
      · rw [State.down, summary_read_pending q ts htake, summary_read_pending (q.down n) _ htake]
        exact ih (.reading q w') (hlater (ne_endOfInput_of_take htake))
      · have hrest := ih .idle (hlater (ne_endOfInput_of_take htake))
        rw [State.down] at hrest
        rw [State.down, summary_read_complete q ts htake, summary_read_complete (q.down n) _ htake, hrest]

end Parser

/-! ## Scripts one after another -/

open Lexer

/-- What is read of two scripts, the second on a line of its own. -/
theorem readScript_lines {a : String} (ha : IsClosed a) (b : String) :
    Parser.readScript (a ++ "\n" ++ b) =
      (Parser.readScript a).andThen (Parser.read .idle ((tokenize b).map (Token.down (lineFeeds a + 1)))) := by
  unfold Parser.readScript Parser.readTokens
  rw [tokenize_lines ha, tokenize_eq a]
  exact Parser.read_append_newline .idle (fun _ ht => isEnd_of_mem_tokensBefore ht) (endOf a) _

/-- What is read of a script further down. -/
theorem summary_readScript_down (n : Nat) (b : String) :
    (Parser.read .idle ((tokenize b).map (Token.down n))).summary =
      ((Parser.readScript b).summary.1, (Parser.readScript b).summary.2.map (ParseError.down n)) := by
  refine Parser.summary_read_down n .idle ⟨⟨.endOfInput, endOf b⟩, ?_, rfl⟩
  rw [tokenize_eq]
  simp

instance (script : String) : Decidable (IsClosed script) := inferInstanceAs (Decidable (_ = _))

/-- A script is closed exactly if a line feed after it is a token of its own. -/
theorem isClosed_iff (a : String) :
    IsClosed a ↔ (tokenize (a ++ "\n")).dropLast.getLast?.map Token.kind = some .newline := by
  constructor
  · intro ha
    have h := tokenize_lines ha ""
    rw [String.append_empty] at h
    have hempty : tokenize "" = [⟨.endOfInput, .start⟩] := by
      rw [tokenize, String.toList_empty, lexemes]
      rfl
    rw [h, hempty]
    simp
  · intro h
    by_contra ha
    obtain ⟨ls, source, text, hls⟩ := lexemes_lineFeed (eq_true_of_ne_false ha)
    have htext : (a ++ "\n").toList = a.toList ++ ['\n'] := by simp
    rw [tokenize, htext, hls, locate_append] at h
    simp [locate] at h

/-- Scripts compose line by line. -/
theorem parseScript_lines (a b : String) :
    (IsClosed a ↔ (tokenize (a ++ "\n")).dropLast.getLast?.map Token.kind = some .newline) ∧
      (IsClosed a →
        (∀ e, parseScript a = .error e → parseScript (a ++ "\n" ++ b) = .error e) ∧
          ∀ as, parseScript a = .ok as →
            (∀ e, parseScript b = .error e →
              parseScript (a ++ "\n" ++ b) =
                .error ⟨⟨e.position.line + 1 + lineFeeds a, e.position.column⟩, e.message⟩) ∧
            ∀ bs, parseScript b = .ok bs →
              as = commandsUnder .unset (statementsOf a) ∧ bs = commandsUnder .unset (statementsOf b) ∧
                parseScript (a ++ "\n" ++ b) =
                  .ok (as ++ commandsUnder (Settings.unset.over (statementsOf a)) (statementsOf b))) := by
  refine ⟨isClosed_iff a, fun ha => ⟨fun e he => ?_, fun as has => ⟨fun e he => ?_, fun bs hbs => ?_⟩⟩⟩
  · rw [parseScript_eq_error] at he ⊢
    rw [readScript_lines ha]
    exact Reading.summary_andThen_fault he _
  · rw [parseScript_eq_ok] at has
    rw [parseScript_eq_error] at he ⊢
    rw [readScript_lines ha, Reading.summary_andThen has.1, summary_readScript_down, he]
    show some (ParseError.down (lineFeeds a + 1) e) = _
    rw [Nat.add_assoc, Nat.add_comm 1]
    rfl
  · rw [parseScript_eq_ok] at has hbs
    refine ⟨has.2, hbs.2, ?_⟩
    have hsummary := Reading.summary_andThen has.1
      (Parser.read .idle ((tokenize b).map (Token.down (lineFeeds a + 1))))
    rw [summary_readScript_down, hbs.1, ← readScript_lines ha] at hsummary
    rw [parseScript, Reading.commands_eq_ok, hsummary]
    refine ⟨rfl, ?_⟩
    show _ = commandsFrom .unset (statementsOf a ++ statementsOf b)
    rw [commandsFrom_append, afterAll_eq_over, commandsFrom_eq_commandsUnder, commandsFrom_eq_commandsUnder, has.2]

/-- A closed script of two commands before one that withdraws the chunk size, and before and after one
that is faulty. -/
theorem parseScript_lines_two :
    let a := "CHUNKLATENCY 5 CHUNKSIZE 3\nSAY \"one\ntwo\""
    let b := "SAY \"x\" CHUNKSIZE 0 SAY \"y\""
    let c := "\n SAY"
    let as : List Command := [⟨.say "one\ntwo", ⟨some 3, some 5, none⟩⟩]
    let bs : List Command := [⟨.say "x", .unset⟩, ⟨.say "y", .unset⟩]
    let fault : ParseError := ⟨⟨2, 5⟩, "Expected string after SAY"⟩
    IsClosed a ∧ IsClosed c ∧ parseScript a = .ok as ∧ parseScript b = .ok bs ∧ parseScript c = .error fault ∧
      parseScript (a ++ "\n" ++ b) =
        .ok (as ++ [⟨.say "x", ⟨some 3, some 5, none⟩⟩, ⟨.say "y", ⟨none, some 5, none⟩⟩]) ∧
      parseScript (a ++ "\n" ++ c) = .error ⟨⟨5, 5⟩, fault.message⟩ ∧ parseScript (c ++ "\n" ++ a) = .error fault := by
  intro a b c as bs fault
  have ha : IsClosed a := by decide
  have hc : IsClosed c := by decide
  have has : parseScript a = .ok as := by decide +kernel
  have hbs : parseScript b = .ok bs := by decide +kernel
  have hfault : parseScript c = .error fault := by decide +kernel
  obtain ⟨-, -, hok⟩ := (((parseScript_lines a b).2 ha).2 as has).2 bs hbs
  have herror := (((parseScript_lines a c).2 ha).2 as has).1 fault hfault
  have hfirst := ((parseScript_lines c a).2 hc).1 fault hfault
  exact ⟨ha, hc, has, hbs, hfault, hok.trans (by decide +kernel), herror.trans (by decide +kernel), hfirst⟩

end ScriptedModel.Script
