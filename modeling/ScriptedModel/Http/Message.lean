/-
Requests and responses. A response is whole: its body is read to the end, and the pauses that were
made on the way are listed.
-/
import ScriptedModel.Failure
import ScriptedModel.Http.Headers
import ScriptedModel.Text.Percent
import ScriptedModel.Text.Split

namespace ScriptedModel.Http

/-- What a request asks for: a path, and a query if there is a question mark. -/
structure Target where
  path : String
  query? : Option String
  deriving DecidableEq, Repr

/-- Whether a character may stand in the name of a scheme. -/
def isSchemeLetter (c : Char) : Bool := c.isAlphanum || ['+', '-', '.'].contains c

/-- A text without the scheme and the server that it may begin with; what is left then begins with
a slash. -/
def withoutServer (cs : List Char) : List Char :=
  if isSchemeLetter (cs.headD '/') then
    match cs.dropWhile isSchemeLetter with
    | ':' :: '/' :: '/' :: rest =>
      match rest.dropWhile (fun c => c ≠ '/' ∧ c ≠ '?') with
      | '/' :: path => '/' :: path
      | query => '/' :: query
    | _ => cs
  else cs

/-- The target that a text spells; a server is only named, and a fragment is no part of it. -/
def Target.ofText (text : String) : Target :=
  let cs := withoutServer (text.toList.takeWhile (· ≠ '#'))
  match Split.atFirst? '?' cs with
  | some (path, query) => ⟨String.ofList path, some (String.ofList query)⟩
  | none => ⟨String.ofList cs, none⟩

/-- A request. -/
structure Request where
  method : String
  target : Target
  headers : Headers
  body : List UInt8
  deriving DecidableEq, Repr

/-- A response, and the pauses that its body took, in milliseconds. -/
structure Response where
  status : Nat
  headers : Headers
  body : String
  pauses : List Nat
  deriving DecidableEq, Repr

/-- The content type of JSON. -/
def jsonType : String := "application/json"

/-- The content type of plain text. -/
def textType : String := "text/plain; charset=utf-8"

namespace Response

/-- A response without headers and without a body. -/
def empty (status : Nat) : Response := ⟨status, [], "", []⟩

/-- A response that is whole at once. -/
def immediate (status : Nat) (contentType body : String) : Response :=
  ⟨status, [("content-type", contentType)], body, []⟩

/-- A response with a header more. -/
def withHeader (r : Response) (name value : String) : Response :=
  { r with headers := r.headers ++ [(name, value)] }

/-- A JSON document as a response. -/
def json (v : Json.Value) : Response := immediate 200 jsonType v.compact

/-- The response that tells of a failure. -/
def ofFailure (f : Failure) : Response := immediate f.status jsonType f.toJson.compact

/-- A response without its body. -/
def withoutBody (r : Response) : Response := { r with body := "" }

end Response

end ScriptedModel.Http
