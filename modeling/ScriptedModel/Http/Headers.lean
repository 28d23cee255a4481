/-
The headers of a request, as its sender wrote them. Names are compared without regard to the case
of ASCII letters, and of repeated headers the first counts.
-/

namespace ScriptedModel.Http

/-- Names and values of headers, in order. -/
abbrev Headers := List (String × String)

namespace Headers

/-- The first value of a header. -/
def get? (hs : Headers) (name : String) : Option String :=
  (hs.find? (fun h => h.1.toLower == name)).map Prod.snd

/-- Whether a header is present, whatever it says. -/
def has (hs : Headers) (name : String) : Bool := (hs.get? name).isSome

end Headers

end ScriptedModel.Http
