/-
Cutting a text into chunks of a number of characters, the last of which may be shorter. A text
that is empty, or a size of zero, gives the whole text as one chunk.
-/

namespace ScriptedModel.Stream

/-- Cuts a list after every `size` characters, a size of zero counting as one. -/
def pieces (size : Nat) : List Char → List (List Char)
  | [] => []
  | c :: cs => (c :: cs.take (size - 1)) :: pieces size (cs.drop (size - 1))
termination_by cs => cs.length
decreasing_by simp only [List.length_drop, List.length_cons]; omega

/-- The chunks of a text. -/
def chunkText (text : String) (size : Nat) : List String :=
  if text = "" ∨ size = 0 then [text] else (pieces size text.toList).map String.ofList

/-- The size that a text is cut with: the configured one, or the length of the text, and at least
one. -/
def effectiveSize (text : String) (configured : Option Nat) : Nat :=
  max 1 (configured.getD text.length)

end ScriptedModel.Stream
