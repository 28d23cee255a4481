/-
The five words that start a statement of the script language.
-/

namespace ScriptedModel.Script

/-- A word that starts a statement. -/
inductive Keyword
  | say
  | toolCall
  | chunkSize
  | chunkLatency
  | randomLatency
  deriving DecidableEq, Repr

namespace Keyword

/-- All keywords, in the order of the catalog. -/
def all : List Keyword := [.say, .toolCall, .chunkSize, .chunkLatency, .randomLatency]

/-- The upper-case spelling of a keyword. -/
def name : Keyword → String
  | .say => "SAY"
  | .toolCall => "TOOLCALL"
  | .chunkSize => "CHUNKSIZE"
  | .chunkLatency => "CHUNKLATENCY"
  | .randomLatency => "RANDOMLATENCY"

/-- The keyword that a word spells when the case of ASCII letters is ignored. -/
def ofWord? (word : String) : Option Keyword :=
  all.find? (fun k => k.name == word.map Char.toUpper)

end Keyword

end ScriptedModel.Script
