/-
What a listing tells of its commands. A reader of JSON that knows the names of the members finds in it what
each command puts out, and each setting that is in force; a setting that is not has no member.

Main statement: this gives back the commands, all of them as they were, so no two lists have one listing, and
what the program prints for a script tells the commands of the script.
-/
import ScriptedModel.CommandLine.Run
import ScriptedModel.Files.Disk
import ScriptedModel.Proofs.Json.Indentation

namespace ScriptedModel.Script

open Json (Document Value)

/-! ## Reading a listing -/

/-- What a document says that a command puts out. -/
def Directive.ofListed? (d : Document) : Option Directive := do
  match ← (← d.member? "type").string? with
  | "SAY" => return .say (← (← d.member? "content").string?)
  | "TOOLCALL" => return .toolCall (← (← d.member? "toolName").string?) (← (← d.member? "arguments").string?)
  | _ => none

/-- Two counts in brackets. -/
def range? : Document → Option (Nat × Nat)
  | .array [low, high] => do return (← low.count?, ← high.count?)
  | _ => none

/-- A setting, which is unset if it has no member. -/
def setting? {α : Type} (read : Document → Option α) : Option Document → Option (Option α) :=
  Field.readOr none fun d => (read d).map some

/-- The settings that a document tells of. -/
def Settings.ofListed? (d : Document) : Option Settings := do
  return ⟨← setting? Document.count? (d.member? "chunkSize"), ← setting? Document.count? (d.member? "chunkLatencyMs"),
    ← setting? range? (d.member? "randomLatencyMs")⟩

/-- The command that a document tells of. -/
def Command.ofListed? (d : Document) : Option Command := do
  return ⟨← Directive.ofListed? (← d.member? "command"), ← Settings.ofListed? d⟩

/-- The commands that a listing tells of. -/
def ofListing? (text : String) : Option (List Command) :=
  (Document.ofSource? (Json.sourceOf text)).bind (Document.list? Command.ofListed?)

/-! ## Reading what was listed -/

theorem Directive.ofListed?_toJson (d : Directive) : Directive.ofListed? d.toJson.document = some d := by
  cases d with
  | say content =>
    simp [ofListed?, toJson, Document.member?_document, Value.member?, Document.string?_document]
  | toolCall toolName arguments =>
    simp [ofListed?, toJson, Document.member?_document, Value.member?, Document.string?_document]

theorem range?_document (r : Nat × Nat) : range? (Value.array [.nat r.1, .nat r.2]).document = some r := by
  show (do return (← (Value.nat r.1).document.count?, ← (Value.nat r.2).document.count?) : Option (Nat × Nat)) = some r
  rw [Document.count?_document, Document.count?_document]
  rfl

/-- The members of a command are told apart by their names, whichever settings have one. -/
theorem member?_toJson (c : Command) :
    c.toJson.member? "command" = some c.directive.toJson ∧
    c.toJson.member? "chunkSize" = c.settings.chunkSize.map .nat ∧
    c.toJson.member? "chunkLatencyMs" = c.settings.chunkLatency.map .nat ∧
    c.toJson.member? "randomLatencyMs" = c.settings.randomLatency.map fun r => .array [.nat r.1, .nat r.2] := by
  obtain ⟨directive, size, latency, random⟩ := c
  cases size <;> cases latency <;> cases random <;> exact ⟨rfl, rfl, rfl, rfl⟩

theorem setting?_document {α : Type} {read : Document → Option α} {written : α → Value}
    (h : ∀ a, read (written a).document = some a) (setting : Option α) :
    setting? read ((setting.map written).map Value.document) = some setting := by
  cases setting with
  | none => rfl
  | some a =>
    show (read (written a).document).map some = some (some a)
    rw [h]
    rfl

theorem Command.ofListed?_toJson (c : Command) : Command.ofListed? c.toJson.document = some c := by
  obtain ⟨hcommand, hsize, hlatency, hrandom⟩ := member?_toJson c
  rw [ofListed?, Settings.ofListed?]
  simp only [Document.member?_document, hcommand, hsize, hlatency, hrandom, Option.map_some, Option.bind_eq_bind,
    Option.bind_some, Directive.ofListed?_toJson, setting?_document Document.count?_document,
    setting?_document range?_document]
  rfl

theorem mapM_ofListed? (cs : List Command) :
    (Json.itemDocuments (cs.map Command.toJson)).mapM Command.ofListed? = some cs := by
  induction cs with
  | nil => rfl
  | cons c cs ih =>
    rw [List.map_cons, Json.itemDocuments, List.mapM_cons, Command.ofListed?_toJson, ih]
    rfl

/-- Blanks after a listing do not matter. -/
theorem ofListing?_append (cs : List Command) {after : String} (h : Json.Blanks after.toList) :
    ofListing? (listing cs ++ after) = some cs := by
  have hspells := ((Value.array (cs.map Command.toJson)).spells_writeIndented 0).before h
  have htext : (listing cs ++ after).toList = (Value.array (cs.map Command.toJson)).writeIndented 0 ++ after.toList := by
    rw [String.toList_append, listing, Value.indented, String.toList_ofList]
  rw [ofListing?, Json.sourceOf, htext, Document.ofSource?_of_spells hspells]
  exact mapM_ofListed? cs

theorem ofListing?_listing (cs : List Command) : ofListing? (listing cs) = some cs := by
  have hread : ofListing? (listing cs ++ "") = some cs := ofListing?_append cs Json.blanks_nil
  rwa [String.append_empty] at hread

end ScriptedModel.Script

namespace ScriptedModel.CommandLine

open Files (Disk)
open Script (listing ofListing? ofListing?_append ofListing?_listing parseScript)

/-! ## Printing -/

/-- What a script that is named by a path is read from: standard input, or a file. -/
def Supplies (stdin : StateM Disk String) (d : Disk) (path script : String) : Prop :=
  if path = standardInput then (stdin d).1 = script else d.read path = .ok script

/-- What is logged of a script before its listing is printed. -/
def logOf (logLines : List Logging.Event → String) (script : String) : String :=
  logLines ((Script.Parser.readScript script).diagnostics.map event)

theorem bind_of_eq {σ α β : Type} {x : StateM σ α} {f : α → StateM σ β} {s s' : σ} {a : α} (h : x s = (a, s')) :
    (x >>= f) s = f a s' := by
  show f (x s).1 (x s).2 = _
  rw [h]

/-- Wherever the script comes from, the program goes on with it. -/
theorem outcome_of_supplies {stdin : StateM Disk String} {d : Disk} {path script : String} {o : Outcome}
    {rest : Except Files.Refusal String → StateM Disk Outcome} (h : Supplies stdin d path script)
    (hrest : ∀ d', (rest (.ok script) d').1 = o) :
    ((if path = standardInput then (.ok <$> stdin) >>= rest else Files.read path >>= rest : StateM Disk Outcome) d).1 =
      o := by
  unfold Supplies at h
  split at h
  · next hpath =>
    have hread : (.ok <$> stdin : StateM Disk (Except Files.Refusal String)) d = (.ok script, (stdin d).2) := by
      rw [← h]
      rfl
    rw [if_pos hpath, bind_of_eq hread, hrest]
  · next hpath =>
    have hread : (Files.read path : StateM Disk _) d = (.ok script, d) := congrArg (·, d) h
    rw [if_neg hpath, bind_of_eq hread, hrest]

theorem exists_writeLog (log? : Option String) (lines : String) (d : Disk) :
    ∃ d', (writeLog log? lines : StateM Disk String) d = (if log?.isSome then "" else lines, d') := by
  cases log? with
  | none => exact ⟨d, rfl⟩
  | some path => exact ⟨_, rfl⟩

/-- The program prints the listing of a script, and before it what it logs, unless the log goes to a file. -/
theorem runParse_of_parseScript {stdin : StateM Disk String} {d : Disk} {path script : String}
    {cs : List Script.Command} (hscript : Supplies stdin d path script) (hparse : parseScript script = .ok cs)
    (log? : Option String) (logLines : List Logging.Event → String) :
    (runParse log? logLines stdin path d).1 =
      .ended ⟨0, (if log?.isSome then "" else logOf logLines script) ++ listing cs ++ "\n", ""⟩ := by
  have hcommands : (Script.Parser.readScript script).commands = .ok cs := hparse
  refine outcome_of_supplies hscript fun d' => ?_
  obtain ⟨d'', hlog⟩ := exists_writeLog log? (logOf logLines script) d'
  show (((writeLog log? (logOf logLines script) : StateM Disk String) >>= _) d').1 = _
  rw [bind_of_eq hlog, hcommands]
  rfl

/-- A listing tells all of its commands, so commands with one listing are the same; and so does what the
program prints behind its log. -/
theorem listing_tells :
    (∀ cs : List Script.Command, ofListing? (listing cs) = some cs) ∧
      (∀ cs ds : List Script.Command, listing cs = listing ds → cs = ds) ∧
      ∀ (stdin : StateM Disk String) (d : Disk) (path script : String) (cs : List Script.Command),
        Supplies stdin d path script → parseScript script = .ok cs →
          ∀ (log? : Option String) (logLines : List Logging.Event → String), ∃ printed : String,
            (runParse log? logLines stdin path d).1 =
              .ended ⟨0, (if log?.isSome then "" else logOf logLines script) ++ printed, ""⟩ ∧
            ofListing? printed = some cs := by
  refine ⟨ofListing?_listing, fun cs ds h => ?_, fun stdin d path script cs hscript hparse log? logLines => ?_⟩
  · have hlisted := ofListing?_listing cs
    rw [h, ofListing?_listing] at hlisted
    exact (Option.some.inj hlisted).symm
  · have hblank : Json.Blanks "\n".toList := fun c hc => .inr (.inr (.inl (List.mem_singleton.1 hc)))
    refine ⟨listing cs ++ "\n", ?_, ofListing?_append cs hblank⟩
    rw [runParse_of_parseScript hscript hparse, String.append_assoc]

theorem listing_tells_two :
    let script := "SAY \"\" CHUNKSIZE 2 SAY \"]\""
    let commands := [⟨.say "", ⟨none, none, none⟩⟩, ⟨.say "]", ⟨some 2, none, none⟩⟩]
    ∃ printed : String, ((runParse (some "log") (fun _ => "") (pure "") "script" : StateM Disk Outcome)
      ⟨[(["script"], .file script)], []⟩).1 = .ended ⟨0, "" ++ printed, ""⟩ ∧ ofListing? printed = some commands := by
  intro script commands
  have hparse : parseScript script = .ok commands := by
    have htried : (parseScript script).toOption = some commands := by decide +kernel
    cases h : parseScript script with
    | ok cs =>
      rw [h] at htried
      exact congrArg _ (Option.some.inj htried)
    | error e =>
      rw [h] at htried
      cases htried
  have hsupplies : Supplies (pure "") ⟨[(["script"], .file script)], []⟩ "script" script := rfl
  exact listing_tells.2.2 _ _ _ script commands hsupplies hparse (some "log") fun _ => ""

end ScriptedModel.CommandLine
