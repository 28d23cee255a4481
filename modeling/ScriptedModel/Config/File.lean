/-
Configurations as YAML text: how it is read, and the one way in which it is written.
-/
import ScriptedModel.Config.Reading
import ScriptedModel.Yaml.Document
import ScriptedModel.Yaml.Scalar

namespace ScriptedModel.Configuration

open Yaml (Document)

/-! ## Reading -/

/-- The fields of a record; what is left out has no fields, and the names are scalars. -/
def fieldsOf? (names : List String) (d : Document) : Option (List (Option Document)) :=
  match d.target with
  | .record ms => do
    let named ← ms.mapM fun m => ({ d with root := m.1 }).text?.map (·, { d with root := m.2 })
    names.mapM (Field.named? named)
  | .scalar .plain _ "" => Field.inOrder? names.length []
  | _ => none

/-- YAML as a format of configurations. Any scalar is a text. -/
instance : Format Document where
  record? := fieldsOf?
  items? d :=
    match d.target with
    | .list ns => some (ns.map fun n => { d with root := n })
    | .scalar .plain _ "" => some []
    | _ => none
  text? := Document.text?
  truth? d := (d.valueOf? "bool").bind Yaml.Scalar.truth?
  natural? bound d := ((d.valueOf? "int").bind Yaml.Scalar.natural?).filter (· ≤ bound)

/-- The configuration that a YAML text spells; a text that spells none is refused in the words of the reader. -/
def ofYaml (words text : String) : Except Failure Configuration :=
  ((Document.ofText? text).bind ofDocument?).elim (.error (.malformedYaml words)) .ok

/-! ## Writing -/

/-- A line end, unless a text ends in one. -/
def ended (cs : List Char) : List Char :=
  if cs.getLast?.any Yaml.isBreak then cs else cs ++ ['\n']

/-- The spaces before the lines of a literal block. -/
def blockIndentation : Nat := 4

/-- A line of a section: a name and a value. -/
def line (name : String) (value : List Char) : List Char :=
  ended ("  ".toList ++ name.toList ++ ": ".toList ++ value)

/-- A text as a value. -/
def scalar (s : String) : List Char := Yaml.Scalar.write blockIndentation s

/-- A truth value. -/
def truth (b : Bool) : List Char := (if b then "true" else "false").toList

/-- The lines of the keys. -/
def keyLines : List String → List Char
  | [] => "  api_keys: []\n".toList
  | keys => "  api_keys:\n".toList ++ keys.flatMap fun k => ended ("  - ".toList ++ scalar k)

/-- The YAML text of a configuration. -/
def toYaml (c : Configuration) : String :=
  String.ofList
    ("server:\n".toList ++
      line "host" (scalar c.listening.host) ++
      line "port" (Numeral.digits 10 c.listening.port.toNat) ++
      line "cors_enabled" (truth c.listening.anyOrigin) ++
      "streaming:\n".toList ++
      line "default_chunk_latency_ms" (Numeral.digits 10 c.streaming.latency.toNat) ++
      line "default_model" (scalar c.streaming.model) ++
      line "channel_capacity" (Numeral.digits 10 c.streaming.capacity.toNat) ++
      "security:\n".toList ++
      keyLines c.keys)

end ScriptedModel.Configuration
