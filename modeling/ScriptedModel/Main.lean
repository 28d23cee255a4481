/-
The program: the command line run on the files, the environment and the standard streams of the
system. Sockets are not opened.
-/
import ScriptedModel.CommandLine.Run

open ScriptedModel

namespace ScriptedModel.Main

/-- Whether a code is one of the system, which may be given with a minus sign. -/
def isCode (n code : UInt32) : Bool := code = n || code = 0 - n

/-- Why the system refused an operation. -/
def refusal : IO.Error → Files.Refusal
  | .noFileOrDirectory _ _ _ => .missing
  | .alreadyExists _ _ _ => .exists
  | .inappropriateType file? code details =>
    if isCode 20 code then .notDirectory
    else if isCode 21 code then .isDirectory
    else .other (toString (IO.Error.inappropriateType file? code details))
  | e => .other (toString e)

/-- The result of an operation of the system. -/
def attempt {α : Type} (action : IO α) : IO (Except Files.Refusal α) := do
  try
    return .ok (← action)
  catch e =>
    return .error (refusal e)

/-- The files of the system. -/
instance : Files IO where
  read path := attempt (IO.FS.readFile path)
  append path text := attempt do
    let file ← IO.FS.Handle.mk path .append
    file.putStr text
  makeDirectory path := attempt (IO.FS.createDir path)
  isDirectory path := do
    match ← attempt (IO.FS.Handle.mk (path ++ "/.") .read) with
    | .ok _ => return true
    | .error _ => return false

/-- The rest of a stream. -/
partial def readAll (stream : IO.FS.Stream) (before : String) : IO String := do
  let line ← stream.getLine
  if line.isEmpty then return before
  readAll stream (before ++ line)

/-- What is said of a configuration that cannot be read. -/
def unreadable : String := "the text spells no configuration"

/-- The variables of the environment. -/
def environment : IO CommandLine.Environment := do
  return ⟨← IO.getEnv "RUST_LOG", ← IO.getEnv "HOST_PORT", ← IO.getEnv "PORT"⟩

end ScriptedModel.Main

/-- Runs the program. -/
def main (arguments : List String) : IO UInt32 := do
  let stdin ← IO.getStdin
  match ← CommandLine.run (← Main.environment) Main.unreadable (Main.readAll stdin "") arguments with
  | .ended output =>
    IO.print output.stdout
    IO.eprint output.stderr
    return output.code.toUInt32
  | .listening _ address =>
    IO.eprintln ("Error: cannot listen on " ++ address.text)
    return 1
