/-
Events, and the lines that tell of them.
-/
import ScriptedModel.Json.Writer
import ScriptedModel.Logging.Filter
import ScriptedModel.Logging.Format

namespace ScriptedModel.Logging

/-- Something that happened: how urgent it is, where it comes from, what it says and the named
values that go with it. -/
structure Event where
  level : Level
  target : String
  message : String
  fields : List (String × String)
  deriving DecidableEq, Repr

namespace Event

/-- The names of the fields, of which the message is one. -/
def fieldNames (e : Event) : List String := "message" :: e.fields.map Prod.fst

/-- The line of an event for people. -/
def plaintext (e : Event) : String :=
  let fields := e.fields.map fun f => " " ++ f.1 ++ "=" ++ f.2
  e.level.heading ++ " " ++ e.target ++ ": " ++ e.message ++ String.join fields

/-- The event as a JSON object. -/
def toJson (e : Event) : Json.Value :=
  .object [("level", .string e.level.heading),
    ("fields", .object (("message", .string e.message) :: e.fields.map fun f => (f.1, .string f.2))),
    ("target", .string e.target)]

/-- The line of an event in a format, with its line end. -/
def line (f : Format) (e : Event) : String :=
  match f with
  | .plaintext => e.plaintext ++ "\n"
  | .json => e.toJson.compact ++ "\n"

end Event

/-- The lines of those events that pass a filter. -/
def lines (filter : Filter) (format : Format) (events : List Event) : String :=
  String.join ((events.filter fun e => filter.enables e.target e.fieldNames e.level).map (Event.line format))

end ScriptedModel.Logging
