/-
Files as a program uses them: reading one, appending to one, and making directories. The
operations belong to any monad; how they fail is told by the system.
-/
import ScriptedModel.Files.Path

namespace ScriptedModel.Files

/-- Why the system refuses an operation on a path. -/
inductive Refusal
  | missing
  | exists
  | notDirectory
  | isDirectory
  | other (message : String)
  deriving DecidableEq, Repr

/-- The text of a refusal. -/
def Refusal.message : Refusal → String
  | .missing => "No such file or directory (os error 2)"
  | .exists => "File exists (os error 17)"
  | .notDirectory => "Not a directory (os error 20)"
  | .isDirectory => "Is a directory (os error 21)"
  | .other m => m

end ScriptedModel.Files

namespace ScriptedModel

/-- The operations on files. -/
class Files (m : Type → Type) where
  /-- The text of a file. -/
  read : String → m (Except Files.Refusal String)
  /-- Appends a text to a file, which is made if it is missing. -/
  append : String → String → m (Except Files.Refusal Unit)
  /-- Makes a directory. -/
  makeDirectory : String → m (Except Files.Refusal Unit)
  /-- Whether a path leads to a directory. -/
  isDirectory : String → m Bool

namespace Files

variable {m : Type → Type} [Monad m] [Files m]

/-- The path of names, the last first. -/
def Path.ofNames (absolute : Bool) (names : List String) : String :=
  (if absolute then "/" else "") ++ "/".intercalate names.reverse

/-- Makes the directory of names, the last first, and those that it needs. A directory that is
already there is no failure. -/
def makeDirectories (absolute : Bool) : List String → m (Except Refusal Unit)
  | [] => pure (.ok ())
  | name :: names => do
    let path := Path.ofNames absolute (name :: names)
    let settle (r : Refusal) : m (Except Refusal Unit) := do
      if ← isDirectory path then pure (.ok ()) else pure (.error r)
    match ← makeDirectory path with
    | .ok () => pure (.ok ())
    | .error .missing =>
      match ← makeDirectories absolute names with
      | .error r => pure (.error r)
      | .ok () =>
        match ← makeDirectory path with
        | .ok () => pure (.ok ())
        | .error r => settle r
    | .error r => settle r

/-- Makes the directories that stand before the last name of a path. -/
def makeParents (path : String) : m (Except Refusal Unit) :=
  makeDirectories (Path.isAbsolute path) (Path.names path).dropLast.reverse

end Files

end ScriptedModel
