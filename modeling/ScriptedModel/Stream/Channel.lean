/-
A bounded channel between the encoder of a response and its reader: a queue that takes a frame while
it has room, and none once the reader is gone.
-/

namespace ScriptedModel.Stream

/-- The frames on their way, and whether the reader is still there. -/
structure Channel where
  capacity : Nat
  queue : List String
  connected : Bool
  deriving DecidableEq, Repr

/-- What became of a frame. -/
inductive Sent
  | accepted
  | refused
  | waiting
  deriving DecidableEq, Repr

namespace Channel

/-- The room of the largest channel that there can be: all but three bits of a machine word. -/
def largest : Nat := 2305843009213693951

/-- A channel with a reader and nothing on its way. -/
def empty (capacity : Nat) : Channel := ⟨capacity, [], true⟩

/-- Puts a frame into the queue, unless the reader is gone or the queue is full. -/
def send (c : Channel) (frame : String) : Sent × Channel :=
  if ¬ c.connected then (.refused, c)
  else if c.capacity ≤ c.queue.length then (.waiting, c)
  else (.accepted, { c with queue := c.queue ++ [frame] })

/-- Takes the oldest frame, if there is one. -/
def receive? (c : Channel) : Option (String × Channel) :=
  match c.queue with
  | [] => none
  | frame :: rest => some (frame, { c with queue := rest })

/-- The reader goes away, and the frames on their way with it. -/
def disconnect (c : Channel) : Channel := { c with queue := [], connected := false }

end Channel

end ScriptedModel.Stream
