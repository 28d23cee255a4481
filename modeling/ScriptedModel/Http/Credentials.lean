/-
What a request says about its sender: the key it presents, and the service whose client sent it.
-/
import ScriptedModel.Http.Headers
import ScriptedModel.Stream.Provider
import ScriptedModel.Text.FormEncoding

namespace ScriptedModel.Http

/-! ## Header values -/

/-- Whether a character may stand in a header value that is read as text. -/
def isFieldText (c : Char) : Bool := c = '\t' || (' ' ≤ c && c ≤ '~')

/-- Whether a character of a header value is a blank. -/
def isFieldBlank (c : Char) : Bool := c = '\t' || c = ' '

/-- A text without the blanks around it. -/
def trimField (cs : List Char) : List Char :=
  ((cs.dropWhile isFieldBlank).reverse.dropWhile isFieldBlank).reverse

/-- The value of a header without blanks around it, if it is text and not blank. -/
def Headers.credential? (hs : Headers) (name : String) : Option (List Char) := do
  let value := (← hs.get? name).toList
  if value.all isFieldText ∧ trimField value ≠ [] then some (trimField value) else none

/-! ## Keys -/

/-- The scheme before a token in the authorization header. -/
def bearer : List Char := "Bearer ".toList

/-- The token of an authorization header. -/
def bearerToken? (value : List Char) : Option (List Char) :=
  if bearer.isPrefixOf value then some (trimField (value.drop bearer.length)) else none

/-- The key that a request presents: the first usable one of the authorization header, the two
headers for keys, and the query. -/
def presentedKey? (hs : Headers) (query? : Option String) : Option String :=
  let fromHeader := ((hs.credential? "authorization").bind bearerToken?).or
    ((hs.credential? "x-api-key").or (hs.credential? "x-goog-api-key"))
  match fromHeader with
  | some key => some (String.ofList key)
  | none => query?.bind (FormEncoding.value? · "key")

/-! ## Clients -/

/-- The service whose client sent a request, by the credentials that it uses. -/
def detectedProvider (hs : Headers) (query? : Option String) : Stream.Provider :=
  if hs.has "x-api-key" || hs.has "anthropic-version" then .anthropic
  else if hs.has "x-goog-api-key" || (query?.bind (FormEncoding.value? · "key")).isSome then .gemini
  else .openAi

end ScriptedModel.Http
