/-
What a program is told about its log: the level, the format, and where the log goes. Without a
directory and a file it goes to standard output.
-/
import ScriptedModel.Field
import ScriptedModel.Files.Path
import ScriptedModel.Json.Record
import ScriptedModel.Json.Writer
import ScriptedModel.Logging.Filter
import ScriptedModel.Logging.Format

namespace ScriptedModel.Logging

open Json (Document Value)

/-- The options of a log, each of which may be left out. -/
structure Options where
  level? : Option Level
  format? : Option Format
  directory? : Option String
  file? : Option String
  deriving DecidableEq, Repr

namespace Options

/-- No option. -/
def none : Options := ⟨.none, .none, .none, .none⟩

/-- The options of two lists of options, where the second goes before the first. -/
def overriddenBy (outer inner : Options) : Options :=
  ⟨inner.level?.or outer.level?, inner.format?.or outer.format?,
    inner.directory?.or outer.directory?, inner.file?.or outer.file?⟩

/-! ## Where the log goes -/

/-- Whether the log goes to a file. -/
def usesFile (o : Options) : Bool := o.file?.isSome || o.directory?.isSome

/-- Where a user's data is kept: the directory that is set, if it is absolute, else one below the
home directory. -/
def dataDirectory (home : String) (dataHome? : Option String) : String :=
  (dataHome?.filter fun d => Files.Path.isAbsolute d).getD (Files.Path.join home ".local/share")

/-- The name of the log of a component. -/
def fileName (component : String) : String := component ++ ".log"

/-- The path of the log of a component. -/
def path (o : Options) (component home : String) (dataHome? : Option String) : String :=
  match o.file?, o.directory? with
  | some file, some directory => Files.Path.join directory file
  | some file, .none => file
  | .none, some directory => Files.Path.join directory (fileName component)
  | .none, .none =>
    Files.Path.join (Files.Path.join (dataDirectory home dataHome?) "chunkback") (fileName component)

/-! ## As JSON -/

/-- The options as an object of those that are given. -/
def toJson (o : Options) : Value :=
  .object ([("log-level", o.level?.map Level.name), ("log-format", o.format?.map Format.name),
    ("log-dir", o.directory?), ("log-file", o.file?)].filterMap fun m =>
      m.2.map fun s => (m.1, .string s))

/-- Reads a variant by its name. -/
def variant? {α : Type} (ofName? : String → Option α) (d : Document) : Option α :=
  d.variant?.bind ofName?

/-- Reads options. As an array they are all given. -/
def ofDocument? (d : Document) : Option Options := do
  let fields ← d.record? ["log-level", "log-format", "log-dir", "log-file"]
  match d, fields with
  | .array _, [_, _, _, .none] => .none
  | _, [level, format, directory, file] =>
    return ⟨← Field.readOr .none (Document.nullable? (variant? Level.ofName?)) level,
      ← Field.readOr .none (Document.nullable? (variant? Format.ofName?)) format,
      ← Field.readOr .none (Document.nullable? Document.string?) directory,
      ← Field.readOr .none (Document.nullable? Document.string?) file⟩
  | _, _ => .none

end Options

end ScriptedModel.Logging
