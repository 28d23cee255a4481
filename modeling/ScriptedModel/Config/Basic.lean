/-
The configuration of a server: where it listens, how it streams by default and which keys it
accepts. A configuration that is loaded may still be refused when a server is made of it.
-/
import ScriptedModel.Failure
import ScriptedModel.Network.SocketAddress
import ScriptedModel.Text.Blank

namespace ScriptedModel

/-- Where a server listens, and whether it answers pages of any origin. -/
structure Configuration.Listening where
  host : String
  port : UInt16
  anyOrigin : Bool
  deriving DecidableEq, Repr

/-- How a server streams unless a script or a request says otherwise. -/
structure Configuration.Streaming where
  latency : UInt64
  model : String
  capacity : UInt64
  deriving DecidableEq, Repr

/-- The configuration of a server. -/
structure Configuration where
  listening : Configuration.Listening
  streaming : Configuration.Streaming
  keys : List String
  deriving DecidableEq, Repr

namespace Configuration

/-! ## Defaults -/

/-- Listens on the local machine alone. -/
def Listening.default : Listening := ⟨"127.0.0.1", 5653, true⟩

/-- Pauses for ten milliseconds and echoes a model of its own. -/
def Streaming.default : Streaming := ⟨10, "echo-model", 64⟩

/-- Asks for no key. -/
def default : Configuration := ⟨.default, .default, []⟩

/-! ## Keys -/

/-- Whether a key is asked for. -/
def isGuarded (c : Configuration) : Bool := ¬ c.keys.isEmpty

/-- Whether a key is one of those configured. -/
def accepts (c : Configuration) (key : String) : Bool := c.keys.contains key

/-! ## Checks -/

/-- Refuses the port zero, a channel without room and keys of blanks alone, in this order. -/
def check (c : Configuration) : Except Failure Unit :=
  if c.listening.port = 0 then .error (.configuration "Server port cannot be 0")
  else if c.streaming.capacity = 0 then
    .error (.configuration "Streaming channel capacity cannot be 0")
  else if c.keys.any (fun key => Blank.trim key.toList = []) then
    .error (.configuration "API keys cannot be empty")
  else .ok ()

/-- The text of the address to listen on. -/
def addressText (c : Configuration) : String :=
  c.listening.host ++ ":" ++ Numeral.decimal c.listening.port.toNat

/-- The address to listen on. -/
def address (c : Configuration) : Except Failure Network.SocketAddress :=
  match Network.SocketAddress.ofText? c.addressText.toList with
  | some a => .ok a
  | none => .error (.configuration
      ("Invalid bind address '" ++ c.addressText ++ "': invalid socket address syntax"))

/-- The address of the server that is made of a configuration: it is checked first. -/
def serverAddress (c : Configuration) : Except Failure Network.SocketAddress := do
  c.check
  c.address

end Configuration

end ScriptedModel
