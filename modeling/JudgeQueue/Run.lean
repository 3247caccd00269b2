import JudgeQueue.Catalog
import JudgeQueue.Time.Instant
import JudgeQueue.Verdict
/-!
# Runs and their summary

A run is the result of one testcase within a judging. The summary of all
runs so far says whether the judging is complete and with which verdict,
time, memory and score it ends.
-/

namespace JudgeQueue

/-- The result of one testcase within a judging. -/
structure Run where
  id : Int
  judgingId : Int
  testcaseId : Int
  verdict : Verdict
  /-- Seconds. -/
  executeTime : Float
  /-- Kilobytes. -/
  executeMemory : Int
  completeTime : Instant
deriving DecidableEq, Repr

/-- A run that has not been recorded. -/
structure NewRun where
  judgingId : Int
  testcaseId : Int
  verdict : Verdict
  executeTime : Float
  executeMemory : Int
  completeTime : Instant
deriving DecidableEq, Repr

/-- The recorded run of an id. -/
def NewRun.recorded (n : NewRun) (id : Int) : Run :=
  ⟨id, n.judgingId, n.testcaseId, n.verdict, n.executeTime, n.executeMemory, n.completeTime⟩

/-- What all runs of a judging come to. -/
structure Summary where
  /-- The strongest verdict, once there is a run. -/
  finalVerdict : Option Verdict
  testcasesSeen : Nat
  highestMemory : Int
  longestTime : Float
  /-- The points of the accepted runs, added in order. -/
  totalScore : Float
deriving DecidableEq, Repr

namespace Summary

/-- The greatest of some numbers, zero if there is none. -/
def highest : List Int → Int
  | [] => 0
  | n :: rest => rest.foldl max n

/-- The greatest of some times and zero. -/
def longest (times : List Float) : Float :=
  times.foldl max 0.0

/-- The points of the testcases that the accepted runs belong to, in the
order of the runs. -/
def points (runs : List Run) (testcases : List Testcase) : List Float :=
  (runs.filter fun r => r.verdict.isAccepted).filterMap fun r =>
    (testcases.find? fun t => t.id = r.testcaseId).map Testcase.point

/-- Summarises runs of a problem's testcases. -/
def ofRuns (runs : List Run) (testcases : List Testcase) : Summary where
  finalVerdict := Verdict.reduce (runs.map Run.verdict)
  testcasesSeen := runs.length
  highestMemory := highest (runs.map Run.executeMemory)
  longestTime := longest (runs.map Run.executeTime)
  totalScore := (points runs testcases).foldl (· + ·) 0.0

/-- Whether a judging with these runs has ended: it has failed and is not
graded in full, or all of the problem's testcases have been seen and there
is one. -/
def isComplete (s : Summary) (fullTest : Bool) (testcaseCount : Nat) : Bool :=
  (!fullTest && s.finalVerdict.any fun v => !v.isAccepted) ||
    (0 < testcaseCount && testcaseCount ≤ s.testcasesSeen)

end Summary

end JudgeQueue
