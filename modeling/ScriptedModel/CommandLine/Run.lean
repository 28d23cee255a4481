/-
What a command does: it opens its log, and then lists the commands of a script, or checks that a
server can be made of a configuration. Files belong to the monad that the run takes place in.
-/
import ScriptedModel.CommandLine.Arguments
import ScriptedModel.Config.File
import ScriptedModel.Files.Basic
import ScriptedModel.Logging.Event
import ScriptedModel.Script.Listing
import ScriptedModel.Script.Parser

namespace ScriptedModel.CommandLine

/-! ## Names -/

/-- The name of the program, which is also the name of the component that its log is of. -/
def programName : String := "chunkback"

/-- What the program says of its version. -/
def versionText : String := programName ++ " 0.1.0\n"

/-- What the program says of its use. -/
def helpText : String :=
  "Usage: " ++ programName ++ " [OPTIONS] <COMMAND>\n\nCommands:\n" ++
    "  serve  Serve the OpenAI, Anthropic and Gemini compatible endpoints\n" ++
    "  parse  Print the commands a script parses to, as JSON\n"

/-- Where the events of the parser come from. -/
def parserTarget : String := programName ++ "_cbpl::parser"

/-! ## Outcomes -/

/-- The variables of the environment that a run looks at. -/
structure Environment where
  logFilter? : Option String
  hostPort? : Option String
  port? : Option String
  deriving DecidableEq, Repr

/-- How a run ends: the code of the process, and what it wrote. -/
structure Output where
  code : Nat
  stdout : String
  stderr : String
  deriving DecidableEq, Repr

/-- The end of a run, or a server that is to listen. -/
inductive Outcome
  | ended (output : Output)
  | listening (configuration : Configuration) (address : Network.SocketAddress)
  deriving DecidableEq, Repr

/-- What went wrong, and the causes of it, from the nearest on. -/
structure Trouble where
  message : String
  causes : List String
  deriving DecidableEq, Repr

namespace Trouble

/-- The line of a cause; of several each has its number. -/
def causeLine (numbered : Bool) (i : Nat) (cause : String) : String :=
  if numbered then
    let number := Numeral.digits 10 i
    "\n" ++ String.ofList (List.replicate (5 - number.length) ' ' ++ number) ++ ": " ++ cause
  else "\n    " ++ cause

/-- The text that tells of a trouble. -/
def text (t : Trouble) : String :=
  let numbered : Bool := 1 < t.causes.length
  let lines := t.causes.zipIdx.map fun c => causeLine numbered c.2 c.1
  "Error: " ++ t.message ++ (if t.causes = [] then "" else "\n\nCaused by:") ++ String.join lines ++ "\n"

end Trouble

/-- The end of a run that fails. -/
def failed (stdout : String) (t : Trouble) : Outcome := .ended ⟨1, stdout, t.text⟩

/-! ## The log -/

/-- The filter that the environment asks for, if it spells one, else the one of the options. -/
def logFilter (e : Environment) (o : Logging.Options) : Logging.Filter :=
  (e.logFilter?.bind Logging.Filter.ofText?).getD
    (Logging.Filter.forComponent programName (o.level?.getD .info))

/-- The event of a remark of the parser. -/
def event (d : Script.Diagnostic) : Logging.Event := ⟨d.level, parserTarget, d.message, d.fields⟩

section

variable {m : Type → Type} [Monad m] [Files m]

/-- The file that the log goes to, which is made with its directories; none for standard output. -/
def openLog (o : Logging.Options) : m (Except Files.Refusal (Option String)) := do
  if o.usesFile then
    let path := o.path programName "" none
    match ← Files.makeParents path with
    | .error r => pure (.error r)
    | .ok () =>
      match ← Files.append path "" with
      | .error r => pure (.error r)
      | .ok () => pure (.ok (some path))
  else pure (.ok none)

/-- Writes lines to the log, and gives those that go to standard output. -/
def writeLog (log? : Option String) (lines : String) : m String :=
  match log? with
  | none => pure lines
  | some path => do
    let _ ← Files.append path lines
    pure ""

/-! ## Commands -/

/-- The name that stands for standard input. -/
def standardInput : String := "-"

/-- Lists the commands of a script. -/
def runParse (log? : Option String) (logLines : List Logging.Event → String) (stdin : m String)
    (path : String) : m Outcome := do
  let script ← if path = standardInput then .ok <$> stdin else Files.read path
  match script with
  | .error r => pure (failed "" ⟨"Failed to read " ++ path, [r.message]⟩)
  | .ok script =>
    let reading := Script.Parser.readScript script
    let logged ← writeLog log? (logLines (reading.diagnostics.map event))
    match reading.commands with
    | .error e => pure (failed logged ⟨e.display, []⟩)
    | .ok commands => pure (.ended ⟨0, logged ++ Script.listing commands ++ "\n", ""⟩)

/-- The configuration of a file, or the default one; a file that is not read is told of in the words of the
reader. -/
def loadConfiguration (words : String) (path? : Option String) : m (Except Trouble Configuration) := do
  match path? with
  | none => pure (.ok .default)
  | some path =>
    let message := "Failed to load " ++ path
    match ← Files.read path with
    | .error r => pure (.error ⟨message, [(Failure.inputOutput r.message).message, r.message]⟩)
    | .ok text =>
      match Configuration.ofYaml words text with
      | .error f => pure (.error ⟨message, [f.message, words]⟩)
      | .ok c => pure (.ok c)

/-- A configuration as the options of a server change it; the environment may give a port. -/
def configured (e : Environment) (o : ServeOptions) (c : Configuration) : Configuration :=
  let listening := c.listening
  { c with
    listening :=
      ⟨o.host?.getD listening.host,
        (o.port?.or (e.port?.bind unsignedPort?)).getD listening.port,
        listening.anyOrigin && ¬ o.noCors⟩
    keys := c.keys ++ o.keys }

/-- Makes a server of a configuration. -/
def runServe (e : Environment) (words : String) (o : ServeOptions) : m Outcome := do
  match ← loadConfiguration words o.configPath? with
  | .error t => pure (failed "" t)
  | .ok c =>
    let c := configured e o c
    match c.serverAddress with
    | .error f => pure (failed "" ⟨f.message, []⟩)
    | .ok address => pure (.listening c address)

/-- Runs an invocation; the log is opened first. -/
def runInvocation (e : Environment) (words : String) (stdin : m String) (i : Invocation) : m Outcome := do
  match ← openLog i.logging with
  | .error r => pure (failed "" ⟨r.message, []⟩)
  | .ok log? =>
    match i.command with
    | .serve o => runServe e words o
    | .parse path =>
      let logLines := Logging.lines (logFilter e i.logging) (i.logging.format?.getD .plaintext)
      runParse log? logLines stdin path

/-- Runs the program. Arguments that are not in order end it with the code two; a configuration that cannot be
read is told of in the words of the reader. -/
def run (e : Environment) (words : String) (stdin : m String) (arguments : List String) : m Outcome :=
  match Asked.ofArguments e.hostPort? arguments with
  | .misuse => pure (.ended ⟨2, "", ""⟩)
  | .help => pure (.ended ⟨0, helpText, ""⟩)
  | .version => pure (.ended ⟨0, versionText, ""⟩)
  | .run i => runInvocation e words stdin i

end

end ScriptedModel.CommandLine
