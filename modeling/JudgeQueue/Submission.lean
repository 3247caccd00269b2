import JudgeQueue.Time.Instant
import JudgeQueue.Verdict
/-!
# Submissions

A submission is a team's solution of a contest problem. Its statistics are
kept under contest, team and problem.
-/

namespace JudgeQueue

/-- What a row of the statistics is about: a team's attempts at a problem
of a contest. -/
structure StatisticsKey where
  contestId : Int
  teamId : Int
  problemId : Int
deriving DecidableEq, Repr

namespace StatisticsKey

/-- Keys are ordered by contest, then team, then problem. -/
protected def compare : StatisticsKey → StatisticsKey → Ordering :=
  compareLex (compareOn contestId) (compareLex (compareOn teamId) (compareOn problemId))

instance : Ord StatisticsKey := ⟨StatisticsKey.compare⟩

instance : Std.TransOrd StatisticsKey :=
  inferInstanceAs (Std.TransCmp
    (compareLex (compareOn contestId) (compareLex (compareOn teamId) (compareOn problemId))))

instance : Std.LawfulEqOrd StatisticsKey where
  eq_of_compare {a b} h := by
    have h : ((compare a.contestId b.contestId).then
        ((compare a.teamId b.teamId).then (compare a.problemId b.problemId))) = .eq := h
    rw [Ordering.then_eq_eq, Ordering.then_eq_eq, Std.compare_eq_iff_eq, Std.compare_eq_iff_eq,
      Std.compare_eq_iff_eq] at h
    obtain ⟨a₁, a₂, a₃⟩ := a
    simp only at h
    obtain ⟨rfl, rfl, rfl⟩ := h
    rfl

end StatisticsKey

/-- A submission. All but the last field never change. -/
structure Submission where
  id : Int
  contestId : Int
  teamId : Int
  problemId : Int
  languageId : String
  submitTime : Instant
  /-- The verdict that the jury expects of a solution of its own. -/
  expectedResult : Option Verdict
  /-- An ignored submission never counts in the statistics. -/
  ignored : Bool
  /-- The open rejudging that holds a candidate for this submission. -/
  rejudgingId : Option Int
deriving DecidableEq, Repr

namespace Submission

/-- A solution of the jury is graded on every testcase. -/
def requiresFullTest (s : Submission) : Bool :=
  s.expectedResult.isSome

/-- The row of the statistics that the submission belongs to. -/
def statisticsKey (s : Submission) : StatisticsKey :=
  ⟨s.contestId, s.teamId, s.problemId⟩

end Submission

end JudgeQueue
