import JudgeQueue.Time.Instant
/-!
# Judgehosts

A judgehost is a worker that polls for judgings. One that has not polled for
longer than a timeout is stale, and so is one that never polled.
-/

namespace JudgeQueue

/-- A worker. -/
structure Judgehost where
  hostname : String
  /-- A judgehost that is not active gets no work. -/
  active : Bool
  /-- When the judgehost last took part in the protocol. -/
  pollTime : Option Instant
deriving DecidableEq, Repr

/-- A span of time in nanoseconds. -/
abbrev Span := Int

/-- A span of milliseconds. -/
def Span.ofMillis (millis : Int) : Span :=
  millis * 1000000

/-- Whether a heartbeat is older than `timeout`. A missing one is. -/
def isStale (lastSeen : Option Instant) (timeout : Span) (now : Instant) : Bool :=
  match lastSeen with
  | none => true
  | some seen => timeout < now.since seen

end JudgeQueue
