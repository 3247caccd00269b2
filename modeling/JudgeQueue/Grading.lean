import JudgeQueue.Lookup
/-!
# Grading

Judgehosts report runs in batches. A judging ends with the report that
completes it: when a run has failed and it is not graded in full, or when
every testcase has its run. A run that is reported again is skipped, so a
batch may safely be sent twice.
-/

namespace JudgeQueue

open Transaction

/-- A run as it is reported, with its output streams. -/
structure RunReport where
  testcaseId : Int
  verdict : Verdict
  executeTime : Float
  executeMemory : Int
  outputs : List (RunOutputKind × Bytes)
deriving DecidableEq, Repr

namespace Grading

/-- Puts the output streams of a run. -/
def putOutputs (judgingId runId : Int) : List (RunOutputKind × Bytes) → Transaction Unit
  | [] => pure ()
  | (kind, data) :: rest => do
    putBlob (.runOutput judgingId runId kind) data
    putOutputs judgingId runId rest

/-- The text that a verdict adds to the progress of its judging. -/
def progress (v : Verdict) : String :=
  (v.progressChar.map String.singleton).getD ""

/-- The run that a report stands for. -/
def RunReport.toRun (r : RunReport) (judgingId : Int) (now : Instant) : NewRun :=
  ⟨judgingId, r.testcaseId, r.verdict, r.executeTime, r.executeMemory, now⟩

/-- Records reports in order, but for those of testcases that have been
seen, and answers what they add to the progress. A report of a testcase of
another problem is an error. -/
def recordRuns (judgingId problemId : Int) (testcases : List Testcase) (now : Instant) :
    List Int → List RunReport → Transaction String
  | _, [] => pure ""
  | seen, r :: rest => do
    unlessError (testcases.any fun t => t.id = r.testcaseId)
      (.invalidInput (.foreignTestcase r.testcaseId problemId))
    if seen.contains r.testcaseId then recordRuns judgingId problemId testcases now seen rest
    else
      let run ← ask (.insertRun (RunReport.toRun r judgingId now))
      putOutputs judgingId run.id r.outputs
      let fragment ← recordRuns judgingId problemId testcases now (r.testcaseId :: seen) rest
      pure (progress r.verdict ++ fragment)

/-- The judging once its runs complete it. -/
def finish (j : Judging) (summary : Summary) (now : Instant) : Judging :=
  { j with
    lifecycle := .finalized
    verdict := summary.finalVerdict
    executeTime := some summary.longestTime
    executeMemory := some summary.highestMemory
    totalScore := summary.totalScore
    stopTime := some now }

/-- Records the runs of a judging that the judgehost holds, and ends the
judging if they complete it. -/
def recordBatch (j : Judging) (reports : List RunReport) (now : Instant) :
    Transaction (Ending (Option Judging)) := do
  let submission ← loadSubmission j.submissionId
  let testcases ← ask (.listTestcases submission.problemId)
  let earlier ← ask (.listRuns j.id)
  let fragment ← recordRuns j.id submission.problemId testcases now
    (earlier.map Run.testcaseId) reports
  let runs ← ask (.listRuns j.id)
  let summary := Summary.ofRuns runs testcases
  let graded := { j with runVerdicts := j.runVerdicts ++ fragment }
  if summary.isComplete j.fullTest testcases.length then
    let finished := finish graded summary now
    ask (.updateJudging finished)
    commit (some finished) [.judgingFinished j.id j.submissionId]
  else if fragment.isEmpty then commit (some j) []
  else
    ask (.appendRunVerdicts j.id fragment)
    commit (some graded) []

/-- Records a batch of runs. A batch with a verdict that no run has is
refused as a whole, one by a judgehost that does not hold the judging is
ignored. -/
def reportRuns (hostname : String) (judgingId : Int) (reports : List RunReport) (now : Instant) :
    Transaction (Ending (Option Judging)) := do
  match reports.find? fun r => !r.verdict.isRunVerdict with
  | some r => fail (.invalidInput (.notRunVerdict r.verdict))
  | none =>
    if !(← heartbeat hostname now) then commit none []
    else
      let j ← loadJudging judgingId
      if j.isClaimedBy hostname then recordBatch j reports now else commit none []

end Grading

end JudgeQueue
