/-
A disk held in memory: files and directories by their names from the root. A path is walked name by
name, each of which but the last has to lead to a directory.
-/
import ScriptedModel.Files.Basic

namespace ScriptedModel.Files

/-- What stands at a place. -/
inductive Entry
  | file (text : String)
  | directory
  deriving DecidableEq, Repr

/-- A place: names from the root, the last first. -/
abbrev Place := List String

/-- What stands where, and the place that paths are counted from. The root is a directory. -/
structure Disk where
  entries : List (Place × Entry)
  working : Place
  deriving DecidableEq, Repr

namespace Disk

/-- What stands at a place. -/
def entry? (d : Disk) (p : Place) : Option Entry :=
  if p = [] then some .directory else (d.entries.find? (fun e => e.1 == p)).map Prod.snd

/-- The disk with something put at a place. -/
def put (d : Disk) (p : Place) (e : Entry) : Disk :=
  { d with entries := (p, e) :: d.entries.filter (fun f => f.1 != p) }

/-- The place that a name leads to. -/
def step (p : Place) (name : String) : Place := if name = ".." then p.tail else name :: p

/-- Walks names from a directory; every place on the way has to be a directory. -/
def walk (d : Disk) : Place → List String → Except Refusal Place
  | p, [] => .ok p
  | p, name :: names =>
    match d.entry? p with
    | some .directory => walk d (step p name) names
    | some (.file _) => .error .notDirectory
    | none => .error .missing

/-- The place that a path leads to, where nothing need stand. -/
def place (d : Disk) (path : String) : Except Refusal Place :=
  if path = "" then .error .missing
  else d.walk (if Path.isAbsolute path then [] else d.working) (Path.names path)

/-- The place and what stands there, if something does. -/
def lookup (d : Disk) (path : String) : Except Refusal (Place × Option Entry) := do
  let p ← d.place path
  return (p, d.entry? p)

/-- Whether the last name of a path may be given to something new. -/
def isNew (path : String) : Bool := (Path.names path).getLast?.any (· ≠ "..")

/-- Whether a path takes what it leads to for a directory. -/
def asDirectory (path : String) : Bool := Path.ending path = "" || Path.ending path = "."

/-! ## Operations -/

/-- The text of a file. -/
def read (d : Disk) (path : String) : Except Refusal String := do
  match ← d.lookup path with
  | (_, none) => .error .missing
  | (_, some .directory) => .error .isDirectory
  | (_, some (.file text)) => if asDirectory path then .error .notDirectory else .ok text

/-- Appends to a file, which is made if it is missing; a path that ends in a slash can only be a
directory. -/
def append (d : Disk) (path text : String) : Except Refusal Disk := do
  match ← d.lookup path with
  | (_, some .directory) => .error .isDirectory
  | (p, some (.file before)) =>
    if Path.ending path = "" then .error .isDirectory
    else if asDirectory path then .error .notDirectory
    else .ok (d.put p (.file (before ++ text)))
  | (p, none) =>
    if Path.ending path = "" then .error .isDirectory
    else if isNew path ∧ ¬ asDirectory path then .ok (d.put p (.file text))
    else .error .missing

/-- Makes a directory. -/
def makeDirectory (d : Disk) (path : String) : Except Refusal Disk := do
  match ← d.lookup path with
  | (_, some _) => .error .exists
  | (p, none) => if isNew path then .ok (d.put p .directory) else .error .missing

/-- Whether a path leads to a directory. -/
def isDirectory (d : Disk) (path : String) : Bool :=
  match d.lookup path with
  | .ok (_, some .directory) => true
  | _ => false

/-- The result of an operation that may change the disk. -/
def change (r : Except Refusal Disk) : StateM Disk (Except Refusal Unit) :=
  match r with
  | .ok d => do
    set d
    pure (.ok ())
  | .error e => pure (.error e)

/-- A disk that is empty but for the directory that paths are counted from. -/
def empty : Disk := ⟨[(["work"], .directory)], ["work"]⟩

/-- The files below the directory that paths are counted from, by their paths. -/
def files (d : Disk) : List (String × String) :=
  d.entries.filterMap fun e => match e.2 with
    | .file text =>
      if d.working.isSuffixOf e.1 then
        some (Path.ofNames false (e.1.take (e.1.length - d.working.length)), text)
      else none
    | .directory => none

/-- A disk as the state of a run. -/
instance : Files (StateM Disk) where
  read path := do return (← get).read path
  append path text := do change ((← get).append path text)
  makeDirectory path := do change ((← get).makeDirectory path)
  isDirectory path := do return (← get).isDirectory path

end Disk

end ScriptedModel.Files
