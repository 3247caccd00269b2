import JudgeQueue.Lookup
/-!
# Recovery

A claimed judging that its judgehost will not finish is abandoned, and a
fresh attempt takes its place in the queue: after a restart of the
judgehost, on request, and when the judgehost has stopped polling.
-/

namespace JudgeQueue

open Transaction

/-- An abandoned attempt in its final state, and the one in its place. -/
structure Requeued where
  abandoned : Judging
  replacement : Judging
deriving DecidableEq, Repr

/-- The event that tells of the abandoned attempt. -/
def Requeued.event (r : Requeued) : Event :=
  .judgingFinished r.abandoned.id r.abandoned.submissionId

/-- Abandons a judging and queues its replacement. -/
def requeue (j : Judging) (now : Instant) : Transaction Requeued := do
  let replacement ← ask (.insertJudging (.replacing j))
  let _ ← ask (.updateJudgings (.ofIds [j.id]) (.abandon now))
  let abandoned ← loadJudging j.id
  pure ⟨abandoned, replacement⟩

/-- Requeues judgings one after another. -/
def requeueAll (now : Instant) : List Judging → Transaction (List Requeued)
  | [] => pure []
  | j :: rest => do
    let r ← requeue j now
    let rs ← requeueAll now rest
    pure (r :: rs)

/-- Requeues everything that a judgehost holds. -/
def requeueHeldBy (hostname : String) (now : Instant) : Transaction (List Requeued) := do
  let held ← ask (.findJudgings { lifecycle := some .claimed, server := some hostname })
  requeueAll now held

/-- Requeues everything that some judgehosts hold. -/
def requeueHeldByAny (now : Instant) : List String → Transaction (List Requeued)
  | [] => pure []
  | hostname :: rest => do
    let rs ← requeueHeldBy hostname now
    let others ← requeueHeldByAny now rest
    pure (rs ++ others)

namespace Recovery

/-- Returns a claimed judging to the queue. Any other judging is left alone,
so that asking twice does no harm. -/
def returnToQueue (judgingId : Int) (now : Instant) : Transaction (Ending (Option Requeued)) := do
  let j ← loadJudging judgingId
  if j.isClaimed then
    let r ← requeue j now
    commit (some r) [r.event]
  else rollback none

/-- Requeues what stale judgehosts hold. -/
def sweepStale (timeout : Span) (now : Instant) : Transaction (Ending (List Requeued)) := do
  let hosts ← ask .listJudgehosts
  let stale := (hosts.filter fun h => isStale h.pollTime timeout now).map Judgehost.hostname
  let rs ← requeueHeldByAny now stale
  if rs.isEmpty then rollback [] else commit rs (rs.map Requeued.event)

/-- The greatest timeout that a sweep is run with, in seconds. -/
def maxTimeoutSeconds : Nat := 9223372036854775

/-- The timeout of a background sweep, which is not started for one that is
too long. -/
def sweeperTimeout? (seconds : Nat) : Option Span :=
  if seconds ≤ maxTimeoutSeconds then some (.ofMillis (1000 * seconds)) else none

end Recovery

end JudgeQueue
