/-
The parser reads tokens one after another. Between statements it skips what cannot start one;
inside a statement a wrong operand is a fault, except that an invalid token abandons the
statement and is then skipped. What it reads is a list of entries, from which the remarks and the
commands are taken.
-/
import ScriptedModel.Script.Catalog
import ScriptedModel.Script.Command
import ScriptedModel.Script.Diagnostic
import ScriptedModel.Script.Lexer

namespace ScriptedModel.Script

/-! ## Statements in the making -/

/-- A statement whose operands are still being read. -/
inductive Pending
  | say
  | toolCall
  | toolCallNamed (toolName : String)
  | chunkSize
  | chunkLatency
  | randomLatency
  | randomLatencyFrom (bound : Nat)
  deriving DecidableEq, Repr

/-- What the parser reads, in the order it reads it. -/
inductive Entry
  | statement (statement : Statement)
  | remark (diagnostic : Diagnostic)
  deriving DecidableEq, Repr

namespace Pending

/-- The statement that a keyword begins. -/
def ofKeyword : Keyword → Pending
  | .say => .say
  | .toolCall => .toolCall
  | .chunkSize => .chunkSize
  | .chunkLatency => .chunkLatency
  | .randomLatency => .randomLatency

/-- The keyword that began a statement. -/
def keyword : Pending → Keyword
  | .say => .say
  | .toolCall => .toolCall
  | .toolCallNamed _ => .toolCall
  | .chunkSize => .chunkSize
  | .chunkLatency => .chunkLatency
  | .randomLatency => .randomLatency
  | .randomLatencyFrom _ => .randomLatency

/-- What is said when the next operand is missing or of the wrong kind. -/
def complaint : Pending → String
  | .say => "Expected string after SAY"
  | .toolCall => "Expected tool name string"
  | .toolCallNamed _ => "Expected arguments string"
  | w => "Expected number after " ++ w.keyword.name

/-- A number brought into the bounds of a parameter, with a remark if that changes it. -/
def bounded (k : Keyword) (p : Param) (value : Nat) : Nat × List Entry :=
  let clamped := p.clamp value
  (clamped, if clamped = value then [] else [.remark (.clamped k p.name value clamped)])

/-- A statement still in the making, or complete. -/
inductive Progress
  | pending (statement : Pending)
  | complete (statement : Statement)
  deriving DecidableEq, Repr

/-- Takes the next operand, if it is of the right kind, with the remarks made on it. A chunk size
of zero is taken as it is. -/
def take : Pending → Token.Kind → Option (Progress × List Entry)
  | .say, .string content => some (.complete (.say content), [])
  | .toolCall, .string toolName => some (.pending (.toolCallNamed toolName), [])
  | .toolCallNamed toolName, .string arguments => some (.complete (.toolCall toolName arguments), [])
  | .chunkSize, .number n =>
    if n = 0 then some (.complete (.chunkSize 0), [])
    else
      let (size, remarks) := bounded .chunkSize .size n
      some (.complete (.chunkSize size), remarks)
  | .chunkLatency, .number n =>
    let (latency, remarks) := bounded .chunkLatency .latency n
    some (.complete (.chunkLatency latency), remarks)
  | .randomLatency, .number n =>
    let (bound, remarks) := bounded .randomLatency .minimum n
    some (.pending (.randomLatencyFrom bound), remarks)
  | .randomLatencyFrom bound, .number n =>
    let (other, remarks) := bounded .randomLatency .maximum n
    some (.complete (.randomLatency (min bound other) (max bound other)), remarks)
  | _, _ => none

end Pending

/-! ## Reading -/

/-- What the parser has in hand between two tokens: nothing, or a statement and the place of its
keyword. -/
inductive Parser.State
  | idle
  | reading (position : Position) (statement : Pending)
  deriving DecidableEq, Repr

/-- What was read before the end or the first fault. -/
structure Reading where
  entries : List Entry
  fault? : Option ParseError
  deriving DecidableEq, Repr

namespace Reading

/-- A reading with entries put in front. -/
def after (es : List Entry) (r : Reading) : Reading := ⟨es ++ r.entries, r.fault?⟩

/-- A reading that ends without a fault. -/
def finished : Reading := ⟨[], none⟩

/-- A reading that ends with a fault. -/
def faulty (p : Position) (message : String) : Reading := ⟨[], some ⟨p, message⟩⟩

/-- The statements that were completed. -/
def statements (r : Reading) : List Statement :=
  r.entries.filterMap fun
    | .statement s => some s
    | .remark _ => none

/-- The remarks made on the way. -/
def diagnostics (r : Reading) : List Diagnostic :=
  r.entries.filterMap fun
    | .remark d => some d
    | .statement _ => none

/-- The commands, unless there is a fault. -/
def commands (r : Reading) : Except ParseError (List Command) :=
  match r.fault? with
  | some e => .error e
  | none => .ok (commandsFrom .unset r.statements)

end Reading

namespace Parser

/-- Reads tokens up to the first end of input, or the first fault. -/
def read : State → List Token → Reading
  | .idle, [] => .finished
  | .reading _ w, [] => .faulty .nowhere w.complaint
  | .idle, t :: ts =>
    match t.kind with
    | .endOfInput => .finished
    | .newline => read .idle ts
    | .keyword k => read (.reading t.position (.ofKeyword k)) ts
    | _ => (read .idle ts).after [.remark (.skipped t)]
  | .reading p w, t :: ts =>
    match t.kind with
    | .invalid _ =>
      (read .idle ts).after [.remark (.abandoned w.keyword p), .remark (.skipped t)]
    | k =>
      match w.take k with
      | some (.pending w', remarks) => (read (.reading p w') ts).after remarks
      | some (.complete s, remarks) => (read .idle ts).after (remarks ++ [.statement s])
      | none => .faulty t.position w.complaint

/-- Reads a list of tokens, which need not end with an end of input. -/
def readTokens (ts : List Token) : Reading := read .idle ts

/-- Reads a script. -/
def readScript (script : String) : Reading := readTokens (Lexer.tokenize script)

end Parser

/-- The commands of a list of tokens. -/
def parse (ts : List Token) : Except ParseError (List Command) := (Parser.readTokens ts).commands

/-- The commands of a script. -/
def parseScript (script : String) : Except ParseError (List Command) := (Parser.readScript script).commands

end ScriptedModel.Script
