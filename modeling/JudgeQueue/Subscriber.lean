import JudgeQueue.Operation
/-!
# The statistics subscriber

Notifications travel to the statistics over a channel of bounded size. The
subscriber counts each judging whose end it is told of; a notification that
it is too late for is lost, and only a rebuild repairs what it leaves
uncounted.
-/

namespace JudgeQueue

/-- A channel that keeps the latest notifications which have not been
delivered, the oldest first. -/
structure Channel where
  capacity : Nat
  pending : List Notification := []

namespace Channel

/-- A channel for at least `n` notifications; its capacity is a power of
two. -/
def ofSize (n : Nat) : Channel :=
  ⟨n.nextPowerOfTwo, []⟩

/-- Sends notifications. The oldest ones give way where there are too
many. -/
def send (c : Channel) (ns : List Notification) : Channel :=
  let all := c.pending ++ ns
  { c with pending := all.drop (all.length - c.capacity) }

end Channel

namespace Subscriber

/-- Handles one notification: the end of a judging counts it. -/
def handle (ctx : Context) (w : World) (n : Notification) : World :=
  match n.event with
  | .judgingFinished judgingId _ => ((Operation.judgingFinished judgingId).perform ctx w).world
  | _ => w

/-- Handles all pending notifications. -/
def drain (ctx : Context) (c : Channel) (w : World) : Channel × World :=
  ({ c with pending := [] }, c.pending.foldl (handle ctx) w)

end Subscriber

end JudgeQueue
