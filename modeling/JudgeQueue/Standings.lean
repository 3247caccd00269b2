import JudgeQueue.Lookup
/-!
# Standings

Which judgings the statistics include. A judging is flagged while it is
counted, and the flag and the counters of its key change together: when it
finishes as the active judging of its submission, when it is retracted, and
when the statistics of a contest are rebuilt from nothing.
-/

namespace JudgeQueue

open Transaction

namespace Standings

/-- The contributions of some judgings to the statistics, given the
submissions. -/
def contributionsOf (submissions : List Submission) (judgings : List Judging) :
    List StatisticsDelta :=
  judgings.filterMap fun j => do
    let s ← submissions.find? fun s => s.id = j.submissionId
    contribution j s

/-- The contributions of some judgings to the statistics. -/
def contributions (judgings : List Judging) : Transaction (List StatisticsDelta) := do
  if judgings.isEmpty then pure []
  else
    let submissions ← ask (.findSubmissions (.ofIds (judgings.map Judging.submissionId)))
    pure (contributionsOf submissions judgings)

/-- Flags the active judgings among some that have ended and are not
flagged, and answers what they contribute. -/
def count (f : JudgingFilter) : Transaction (List StatisticsDelta) := do
  let flagged ← ask (.setJudgingsCounted
    { f with active := some true, lifecycle := some .finalized } true)
  contributions flagged

/-- Clears the flag of some judgings, and answers the deltas that take their
contributions back. -/
def uncount (f : JudgingFilter) : Transaction (List StatisticsDelta) := do
  let cleared ← ask (.setJudgingsCounted f false)
  let deltas ← contributions cleared
  pure (deltas.map StatisticsDelta.negated)

/-- Counts a judging that has finished, unless it is not the active one of
its submission or counted already. -/
def judgingFinished (judgingId : Int) : Transaction (Ending (Option StatisticsDelta)) := do
  let deltas ← count (.ofIds [judgingId])
  ask (.mergeStatistics deltas)
  commit deltas.head? []

/-- The statistics of a contest. -/
def get (contestId : Int) : Transaction (Ending (List StatisticsRow)) := do
  commit (← ask (.findStatistics contestId)) []

/-- The rows that some judgings come to. -/
def rowsOf (submissions : List Submission) (judgings : List Judging) : List StatisticsRow :=
  ((contributionsOf submissions judgings).foldl Table.count ∅).rows

/-- Computes the statistics of a contest from its active judgings, and flags
exactly those of its judgings that are active and have ended. -/
def rebuild (contestId : Int) : Transaction (Ending (List StatisticsRow)) := do
  let submissions ← ask (.findSubmissions (.ofContest contestId))
  let ids := submissions.map Submission.id
  let counting : JudgingFilter :=
    { submissionIds := some ids, active := some true, lifecycle := some .finalized }
  let judgings ← ask (.findJudgings counting)
  let rows := rowsOf submissions judgings
  ask (.replaceStatistics contestId rows)
  let _ ← ask (.setJudgingsCounted { submissionIds := some ids, active := some false } false)
  let _ ← ask (.setJudgingsCounted counting true)
  commit rows []

end Standings

end JudgeQueue
