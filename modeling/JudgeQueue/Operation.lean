import JudgeQueue.Curation
import JudgeQueue.Dispatch
import JudgeQueue.Grading
import JudgeQueue.Rejudge
/-!
# Operations

Everything that may be asked of the service, by the type of its answer, and
what each request does to the world. A request is answered at one instant,
with or without faults of its surroundings.
-/

namespace JudgeQueue

/-- A request, by the type of its answer. -/
inductive Operation : Type → Type
  | register (hostname : String) : Operation Registration
  | claimJudging (hostname : String) : Operation (Option Payload)
  | claimTestcase (hostname : String) (judgingId : Int) : Operation (Option Testcase)
  | fetchTestcase (hostname : String) (testcaseId : Int) (kind : TestcaseKind) :
      Operation (Option Bytes)
  | reportCompilation (hostname : String) (judgingId : Int) (success : Bool) (output : String) :
      Operation (Option Judging)
  | reportRuns (hostname : String) (judgingId : Int) (reports : List RunReport) :
      Operation (Option Judging)
  | runOutput (judgingId runId : Int) (kind : RunOutputKind) : Operation (Option Bytes)
  | enqueue (submissionId : Int) : Operation Judging
  | listJudgehosts : Operation (List Judgehost)
  | setJudgehostActive (hostname : String) (active : Bool) : Operation Unit
  | setProblemJudging (problemId : Int) (allow : Bool) : Operation Unit
  | setLanguageJudging (languageId : String) (allow : Bool) : Operation Unit
  | returnToQueue (judgingId : Int) : Operation (Option Requeued)
  | sweepStale (timeout : Span) : Operation (List Requeued)
  | reportError (report : IncidentReport) : Operation RaisedError
  | resolveError (id : Int) (status : ErrorStatus) : Operation ClosedError
  | listErrors (status : Option ErrorStatus) : Operation (List InternalError)
  | createRejudging (new : NewRejudging) : Operation Rejudging
  | getRejudging (id : Int) : Operation RejudgingDetails
  | batchRejudge (selection : Selection) (rejudgingId : Option Int) (fullTest : Bool) :
      Operation (List Judging)
  | applyRejudging (id : Int) (operator : Option Int) : Operation Rejudging
  | cancelRejudging (id : Int) (operator : Option Int) : Operation Cancellation
  | rejudgeSubmission (submissionId : Int) : Operation Judging
  | judgingFinished (judgingId : Int) : Operation (Option StatisticsDelta)
  | getStatistics (contestId : Int) : Operation (List StatisticsRow)
  | rebuildStatistics (contestId : Int) : Operation (List StatisticsRow)
  | deleteTestcase (testcaseId : Int) : Operation TestcaseDeletion

/-- What comes of a request. -/
def Operation.perform {α : Type} (op : Operation α) (ctx : Context) (w : World) : Outcome α :=
  match op with
  | register hostname => transact ctx w (Dispatch.register hostname ctx.now)
  | claimJudging hostname =>
    transact ctx w
      (Dispatch.claimJudging ctx.scripts (w.store.enabledTargets + 1) hostname ctx.now)
  | claimTestcase hostname judgingId =>
    transact ctx w (Dispatch.claimTestcase hostname judgingId ctx.now)
  | fetchTestcase hostname testcaseId kind => Dispatch.fetchTestcase ctx w hostname testcaseId kind
  | reportCompilation hostname judgingId success output =>
    transact ctx w (Dispatch.reportCompilation hostname judgingId success output ctx.now)
  | reportRuns hostname judgingId reports =>
    transact ctx w (Grading.reportRuns hostname judgingId reports ctx.now)
  | runOutput judgingId runId kind =>
    ⟨readBlob ctx w (.runOutput judgingId runId kind), w, []⟩
  | enqueue submissionId => transact ctx w (Dispatch.enqueue submissionId)
  | listJudgehosts => transact ctx w Dispatch.listJudgehosts
  | setJudgehostActive hostname active =>
    transact ctx w (Dispatch.setJudgehostActive hostname active)
  | setProblemJudging problemId allow => transact ctx w (Dispatch.setProblemJudging problemId allow)
  | setLanguageJudging languageId allow =>
    transact ctx w (Dispatch.setLanguageJudging languageId allow)
  | returnToQueue judgingId => transact ctx w (Recovery.returnToQueue judgingId ctx.now)
  | sweepStale timeout => transact ctx w (Recovery.sweepStale timeout ctx.now)
  | reportError report => transact ctx w (Incident.report report ctx.now)
  | resolveError id status => transact ctx w (Incident.resolve id status)
  | listErrors status => transact ctx w (Incident.list status)
  | createRejudging new => transact ctx w (Rejudge.create new ctx.now)
  | getRejudging id => transact ctx w (Rejudge.get id)
  | batchRejudge selection rejudgingId fullTest =>
    transact ctx w (Rejudge.batch selection rejudgingId fullTest)
  | applyRejudging id operator => transact ctx w (Rejudge.apply id operator ctx.now)
  | cancelRejudging id operator => transact ctx w (Rejudge.cancel id operator ctx.now)
  | rejudgeSubmission submissionId => transact ctx w (Rejudge.submission submissionId)
  | judgingFinished judgingId => transact ctx w (Standings.judgingFinished judgingId)
  | getStatistics contestId => transact ctx w (Standings.get contestId)
  | rebuildStatistics contestId => transact ctx w (Standings.rebuild contestId)
  | deleteTestcase testcaseId => transact ctx w (JudgeQueue.deleteTestcase testcaseId)

end JudgeQueue
