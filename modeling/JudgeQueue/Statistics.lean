import JudgeQueue.Judging
import JudgeQueue.Submission
import JudgeQueue.Table
/-!
# Statistics

For each team and problem of a contest two counters are kept: how many
submissions have been judged, and how many of them were accepted. They
change by deltas, and a judging's contribution is the delta that counts it.
-/

namespace JudgeQueue

/-- The counters of one key. -/
structure StatisticsRow where
  contestId : Int
  teamId : Int
  problemId : Int
  totalSubmission : Int
  acceptedSubmission : Int
deriving DecidableEq, Repr

namespace StatisticsRow

/-- The key of a row. -/
def statisticsKey (r : StatisticsRow) : StatisticsKey :=
  ⟨r.contestId, r.teamId, r.problemId⟩

instance : Keyed StatisticsRow StatisticsKey := ⟨statisticsKey⟩

/-- The row of a key before anything is counted. -/
def zero (k : StatisticsKey) : StatisticsRow :=
  ⟨k.contestId, k.teamId, k.problemId, 0, 0⟩

end StatisticsRow

/-- A change of the counters of a key. -/
structure StatisticsDelta where
  statisticsKey : StatisticsKey
  total : Int
  accepted : Int
deriving DecidableEq, Repr

namespace StatisticsDelta

instance : Keyed StatisticsDelta StatisticsKey := ⟨statisticsKey⟩

/-- Whether the delta changes nothing. -/
def isNoop (d : StatisticsDelta) : Bool :=
  d.total = 0 && d.accepted = 0

/-- The delta that takes this one back. -/
def negated (d : StatisticsDelta) : StatisticsDelta :=
  ⟨d.statisticsKey, -d.total, -d.accepted⟩

/-- Adds the numbers of a delta to another one of its key. -/
def add (d : StatisticsDelta) (e : StatisticsDelta) : StatisticsDelta :=
  ⟨d.statisticsKey, d.total + e.total, d.accepted + e.accepted⟩

/-- One delta for each key, in order of the keys, without those that change
nothing. -/
def mergeAll (ds : List StatisticsDelta) : List StatisticsDelta :=
  (ds.foldl (fun merged d => merged.alter ⟨d.statisticsKey, 0, 0⟩ (·.add d))
    (∅ : Table StatisticsDelta)).filter fun d => !d.isNoop

end StatisticsDelta

/-- The counters after a delta. -/
def StatisticsRow.add (r : StatisticsRow) (d : StatisticsDelta) : StatisticsRow :=
  { r with
    totalSubmission := r.totalSubmission + d.total
    acceptedSubmission := r.acceptedSubmission + d.accepted }

/-- Adds a delta to the row of its key, which starts from zero. -/
def Table.count (rows : Table StatisticsRow) (d : StatisticsDelta) : Table StatisticsRow :=
  rows.alter (.zero d.statisticsKey) (·.add d)

/-- What a judging adds to the statistics while it is the active one of its
submission: nothing unless it ended with a verdict that counts, and nothing
for an ignored submission. -/
def contribution (j : Judging) (s : Submission) : Option StatisticsDelta :=
  if s.ignored || !j.hasCountedVerdict then none
  else some ⟨s.statisticsKey, 1, if j.isAccepted then 1 else 0⟩

end JudgeQueue
