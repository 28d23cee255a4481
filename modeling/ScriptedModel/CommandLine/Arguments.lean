/-
The arguments of the command line: options of the log, which may stand before or after the name of
a command, and the command with options of its own. Arguments are read in order, and what is wrong
first decides; an option that takes one value is given once.
-/
import ScriptedModel.Logging.Options

namespace ScriptedModel.CommandLine

/-! ## What is asked for -/

/-- The options of a server, each of which overrides what is configured. -/
structure ServeOptions where
  configPath? : Option String
  host? : Option String
  port? : Option UInt16
  noCors : Bool
  keys : List String
  deriving DecidableEq, Repr

/-- A command: to serve, or to list the commands of the script at a path. -/
inductive Command
  | serve (options : ServeOptions)
  | parse (path : String)
  deriving DecidableEq, Repr

/-- A command and the options of the log. -/
structure Invocation where
  logging : Logging.Options
  command : Command
  deriving DecidableEq, Repr

/-- What arguments ask for, if they are in order. -/
inductive Asked
  | run (invocation : Invocation)
  | help
  | version
  | misuse
  deriving DecidableEq, Repr

/-! ## Values -/

/-- The port that a text spells: an integer with or without a sign. -/
def port? (s : String) : Option UInt16 := do
  let (negative, digits) := match s.toList with
    | '-' :: ds => (true, ds)
    | '+' :: ds | ds => (false, ds)
  let n ← Numeral.value? 10 digits
  if n < UInt16.size ∧ (negative → n = 0) then some n.toUInt16 else none

/-- The port that a text spells where no minus sign is read. -/
def unsignedPort? (s : String) : Option UInt16 :=
  if s.toList.head? = some '-' then none else port? s

/-! ## Options -/

/-- The command whose arguments are read, or none yet. -/
inductive Scope
  | outer
  | serve
  | parse
  deriving DecidableEq, Repr

/-- What was read so far. -/
structure Seen where
  logging : Logging.Options
  serve : ServeOptions
  path? : Option String
  deriving DecidableEq, Repr

/-- Nothing read. -/
def Seen.nothing : Seen := ⟨.none, ⟨none, none, none, false, []⟩, none⟩

/-- The first value of an option; there is none of a text that spells no value, or of an option
that has one already. -/
def first? {α : Type} (before? : Option α) (value? : Option α) : Option (Option α) :=
  if before?.isSome then none else value?.map some

/-- A text that is not empty. -/
def nonEmpty? (s : String) : Option String := if s = "" then none else some s

namespace Seen

/-- The options of the log after one with a value. -/
def loggingOption? (o : Logging.Options) (name value : String) : Option Logging.Options :=
  match name with
  | "log-level" => (first? o.level? (Logging.Level.ofName? value)).map ({ o with level? := · })
  | "log-format" => (first? o.format? (Logging.Format.ofName? value)).map ({ o with format? := · })
  | "log-dir" => (first? o.directory? (some value)).map ({ o with directory? := · })
  | "log-file" => (first? o.file? (some value)).map ({ o with file? := · })
  | _ => none

/-- The options of a server after one with a value. -/
def serveOption? (o : ServeOptions) (name value : String) : Option ServeOptions :=
  match name with
  | "config" => (first? o.configPath? (nonEmpty? value)).map ({ o with configPath? := · })
  | "host" => (first? o.host? (some value)).map ({ o with host? := · })
  | "port" => (first? o.port? (CommandLine.port? value)).map ({ o with port? := · })
  | "api-key" => some { o with keys := o.keys ++ [value] }
  | _ => none

/-- What was read, after an option with a value. -/
def option? (s : Seen) (scope : Scope) (name value : String) : Option Seen :=
  match loggingOption? s.logging name value, scope with
  | some logging, _ => some { s with logging }
  | none, .serve => (serveOption? s.serve name value).map fun serve => { s with serve }
  | none, _ => none

/-- What was read, after an option without a value. -/
def flag? (s : Seen) (scope : Scope) (name : String) : Option Seen :=
  if scope = .serve ∧ name = "no-cors" ∧ ¬ s.serve.noCors then
    some { s with serve := { s.serve with noCors := true } }
  else none

/-- What was read, after an argument that is no option. -/
def operand? (s : Seen) (scope : Scope) (value : String) : Option Seen :=
  if scope = .parse then (first? s.path? (nonEmpty? value)).map fun path? => { s with path? } else none

end Seen

/-- Whether an option takes a value. -/
def takesValue (scope : Scope) (name : String) : Bool :=
  ["log-level", "log-format", "log-dir", "log-file"].contains name ||
    (scope = .serve && ["config", "host", "port", "api-key"].contains name)

/-! ## Arguments -/

/-- An argument by its shape. -/
inductive Shape
  | terminator
  | long (name : String) (value? : Option String)
  | short (letters : List Char)
  | operand
  deriving DecidableEq, Repr

/-- The shape of an argument; a single hyphen is an operand. -/
def Shape.of (argument : String) : Shape :=
  match argument.toList with
  | ['-', '-'] => .terminator
  | '-' :: '-' :: cs =>
    match Split.atFirst? '=' cs with
    | some (name, value) => .long (String.ofList name) (some (String.ofList value))
    | none => .long (String.ofList cs) none
  | '-' :: c :: cs => .short (c :: cs)
  | _ => .operand

/-- How the reading of arguments ends: with help or the version asked for, at something wrong, at
the name of a command, or after the last argument. -/
inductive Ending
  | asked (asked : Asked)
  | command (name : String) (rest : List String) (seen : Seen)
  | done (seen : Seen)
  deriving DecidableEq, Repr

/-- Reads operands after the terminator. -/
def readOperands (scope : Scope) (s : Seen) (arguments : List String) : Ending :=
  match arguments.foldlM (fun s a => Seen.operand? s scope a) s with
  | some s => .done s
  | none => .asked .misuse

/-- What a letter after a single hyphen asks for. -/
def askedByLetter (scope : Scope) (letters : List Char) : Asked :=
  if letters.head? = some 'h' then .help
  else if letters.head? = some 'V' ∧ scope = .outer then .version
  else .misuse

/-- What an option without a value asks for that is none of its scope. -/
def askedByName (scope : Scope) (name : String) : Asked :=
  if name = "help" then .help
  else if name = "version" ∧ scope = .outer then .version
  else .misuse

/-- Reads arguments in order; an option that takes a value takes the next argument unless that
looks like an option itself. -/
def readArguments (scope : Scope) : Seen → List String → Ending
  | s, [] => .done s
  | s, argument :: rest =>
    match Shape.of argument with
    | .terminator => readOperands scope s rest
    | .short letters => .asked (askedByLetter scope letters)
    | .operand =>
      if scope = .outer then .command argument rest s
      else match s.operand? scope argument with
        | some s => readArguments scope s rest
        | none => .asked .misuse
    | .long name (some value) =>
      match if takesValue scope name then s.option? scope name value else none with
      | some s => readArguments scope s rest
      | none => .asked .misuse
    | .long name none =>
      if takesValue scope name then
        match rest with
        | [] => .asked .misuse
        | value :: rest =>
          match if Shape.of value = .operand then s.option? scope name value else none with
          | some s => readArguments scope s rest
          | none => .asked .misuse
      else match s.flag? scope name with
        | some s => readArguments scope s rest
        | none => .asked (askedByName scope name)

/-- What the arguments of a command ask for. -/
def readCommand (scope : Scope) (outer : Logging.Options) (hostPort? : Option String)
    (arguments : List String) : Asked :=
  match readArguments scope .nothing arguments with
  | .asked a => a
  | .command _ _ _ => .misuse
  | .done s =>
    let logging := outer.overriddenBy s.logging
    match scope, s.path? with
    | .outer, _ => .misuse
    | .parse, none => .misuse
    | .parse, some path => .run ⟨logging, .parse path⟩
    | .serve, _ =>
      match s.serve.port?, hostPort? with
      | none, some text =>
        match port? text with
        | some port => .run ⟨logging, .serve { s.serve with port? := some port }⟩
        | none => .misuse
      | _, _ => .run ⟨logging, .serve s.serve⟩

/-- What arguments ask for; the port may also be given by the environment. -/
def Asked.ofArguments (hostPort? : Option String) (arguments : List String) : Asked :=
  match readArguments .outer .nothing arguments with
  | .asked a => a
  | .done _ => .misuse
  | .command "serve" rest s => readCommand .serve s.logging hostPort? rest
  | .command "parse" rest s => readCommand .parse s.logging hostPort? rest
  | .command "help" rest _ =>
    match rest with
    | [] | ["serve"] | ["parse"] | ["help"] => .help
    | _ => .misuse
  | .command _ _ _ => .misuse

end ScriptedModel.CommandLine
