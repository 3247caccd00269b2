import JudgeQueue.Time.Instant
/-!
# Events

Changes that other parts of a contest system are told about. They are
published after the transaction that caused them has been kept.
-/

namespace JudgeQueue

/-- A change worth telling. -/
inductive Event
  | judgingBegun (judgingId submissionId : Int) (hostname : String)
  | judgingFinished (judgingId submissionId : Int)
  | internalErrorRaised (internalErrorId : Int) (judgingId : Option Int) (disabled : String)
deriving DecidableEq, Repr

/-- An event with the time at which it was published. -/
structure Notification where
  time : Instant
  event : Event
deriving DecidableEq, Repr

/-- The notifications of events published at one time. -/
def Event.publish (events : List Event) (now : Instant) : List Notification :=
  events.map fun e => ⟨now, e⟩

end JudgeQueue
