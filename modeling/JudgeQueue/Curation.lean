import JudgeQueue.Lookup
/-!
# Removing testcases

A testcase is removed together with its runs, but not while a judgehost
holds a judging of its problem.
-/

namespace JudgeQueue

open Transaction

/-- What became of a request to remove a testcase. -/
inductive TestcaseDeletion
  | deleted (runsRemoved : Nat)
  | noTestcase (id : Int)
  | inUse (problemId : Int) (claimed : Nat)
deriving DecidableEq, Repr

namespace TestcaseDeletion

/-- Why the request was refused, if it was. -/
def reason? : TestcaseDeletion → Option String
  | deleted _ => none
  | noTestcase id => some s!"Testcase {id} does not exist"
  | inUse problemId claimed =>
    some s!"Problem {problemId} has {claimed} judgings running; wait for them to finish"

end TestcaseDeletion

/-- Removes a testcase with its runs. -/
def deleteTestcase (id : Int) : Transaction (Ending TestcaseDeletion) := do
  match ← ask (.findTestcase id) with
  | none => rollback (.noTestcase id)
  | some testcase =>
    let submissions ← ask (.findSubmissions (.ofProblem testcase.problemId))
    let claimed ← ask (.findJudgings
      { submissionIds := some (submissions.map Submission.id), lifecycle := some .claimed })
    if claimed.isEmpty then commit (.deleted (← ask (.deleteTestcase id))) []
    else rollback (.inUse testcase.problemId claimed.length)

end JudgeQueue
