/-
A sink takes the frames of a response as long as it is open; a collector is a sink that keeps them
and may close after a number of them. Carrying a schedule out into a sink ends where the sink is
found closed: at a frame it does not take, or at a pause, which then is not waited for.
-/
import ScriptedModel.Stream.Schedule

namespace ScriptedModel.Stream

/-- Something that takes frames, one after another, until it closes. -/
class Sink (κ : Type) where
  isClosed : κ → Bool
  send? : κ → String → Option κ

/-- The frames taken so far, and the number after which no more are taken. -/
structure Collector where
  limit : Option Nat
  frames : Array String
  deriving DecidableEq, Repr

namespace Collector

/-- A collector that has taken nothing. -/
def empty (limit : Option Nat) : Collector := ⟨limit, #[]⟩

/-- Whether the collector takes no more frames. -/
def isClosed (c : Collector) : Bool := c.limit.any (fun n => n ≤ c.frames.size)

/-- Takes a frame, unless the collector is closed. -/
def send? (c : Collector) (frame : String) : Option Collector :=
  if c.isClosed then none else some { c with frames := c.frames.push frame }

/-- The frames joined. -/
def body (c : Collector) : String := String.join c.frames.toList

end Collector

@[default_instance]
instance : Sink Collector where
  isClosed := Collector.isClosed
  send? := Collector.send?

/-- How a response ended. -/
inductive Outcome
  | completed
  | disconnected
  deriving DecidableEq, Repr

/-- What carrying out a schedule did: the sink as it was left, the number of frames it took, the
pauses waited for and the responses stored, each in order. -/
structure Run (κ : Type) where
  collector : κ
  taken : Nat
  pauses : List Nat
  stored : List StoredResponse
  outcome : Outcome
  deriving Repr

namespace Run

variable {κ : Type}

/-- Nothing done, and how it ended. -/
def ended (k : κ) (o : Outcome) : Run κ := ⟨k, 0, [], [], o⟩

end Run

/-- Carries out actions into a sink. -/
def perform {κ : Type} [Sink κ] : κ → List Action → Run κ
  | k, [] => .ended k .completed
  | k, .send frame :: rest =>
    match Sink.send? k frame with
    | some k' =>
      let r := perform k' rest
      { r with taken := r.taken + 1 }
    | none => .ended k .disconnected
  | k, .pause ms :: rest =>
    if Sink.isClosed k then .ended k .disconnected
    else
      let r := perform k rest
      { r with pauses := ms :: r.pauses }
  | k, .store response :: rest =>
    let r := perform k rest
    { r with stored := response :: r.stored }

end ScriptedModel.Stream
