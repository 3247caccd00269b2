import JudgeQueue.Error
import JudgeQueue.Store.Basic
import JudgeQueue.Store.Filter
/-!
# Queries

The steps that transactions are made of. A query names what it asks of the
store and the type of its answer; running it yields the answer and the store
after it, or an error that leaves the store as it was.
-/

namespace JudgeQueue

/-- One step of a transaction, by the type of its answer. -/
inductive Query : Type → Type
  | findJudgehost (hostname : String) : Query (Option Judgehost)
  | listJudgehosts : Query (List Judgehost)
  | insertJudgehost (hostname : String) (now : Instant) : Query Judgehost
  | touchJudgehost (hostname : String) (now : Instant) : Query Unit
  /-- Answers whether the judgehost exists. -/
  | setJudgehostActive (hostname : String) (active : Bool) : Query Bool
  | findProblem (id : Int) : Query (Option Problem)
  /-- Answers whether the problem exists. -/
  | setProblemAllowed (id : Int) (allow : Bool) : Query Bool
  | findLanguage (id : String) : Query (Option Language)
  /-- Answers whether the language exists. -/
  | setLanguageAllowed (id : String) (allow : Bool) : Query Bool
  | findExecutable (id : String) : Query (Option Executable)
  /-- In the order of grading. -/
  | listTestcases (problemId : Int) : Query (List Testcase)
  | findTestcase (id : Int) : Query (Option Testcase)
  /-- Removes the runs of the testcase too, and answers how many. -/
  | deleteTestcase (id : Int) : Query Nat
  | findSubmission (id : Int) : Query (Option Submission)
  | findSubmissions (filter : SubmissionFilter) : Query (List Submission)
  /-- Answers how many submissions the filter admits. -/
  | setSubmissionsRejudging (filter : SubmissionFilter) (rejudgingId : Option Int) : Query Nat
  | findJudging (id : Int) : Query (Option Judging)
  | findJudgings (filter : JudgingFilter) : Query (List Judging)
  | insertJudging (new : NewJudging) : Query Judging
  /-- Writes back a judging; whether it is counted stays as stored. -/
  | updateJudging (judging : Judging) : Query Unit
  /-- Answers how many judgings the filter admits. -/
  | updateJudgings (filter : JudgingFilter) (patch : JudgingPatch) : Query Nat
  /-- Removes the runs of the judgings too, and answers how many judgings
  are gone. -/
  | deleteJudgings (filter : JudgingFilter) : Query Nat
  /-- Answers the judgings whose flag changed, as they are now. -/
  | setJudgingsCounted (filter : JudgingFilter) (counted : Bool) : Query (List Judging)
  | appendRunVerdicts (judgingId : Int) (fragment : String) : Query Unit
  /-- Hands the first queued judging that may be judged to a judgehost. -/
  | claimNextJudging (hostname : String) (now : Instant) : Query (Option Judging)
  | insertRun (new : NewRun) : Query Run
  | listRuns (judgingId : Int) : Query (List Run)
  | insertRejudging (new : NewRejudging) (now : Instant) : Query Rejudging
  | findRejudging (id : Int) : Query (Option Rejudging)
  /-- Writes back a rejudging that has not been decided. -/
  | updateRejudging (rejudging : Rejudging) : Query Unit
  | insertInternalError (new : NewInternalError) : Query InternalError
  | findInternalError (id : Int) : Query (Option InternalError)
  | listInternalErrors (status : Option ErrorStatus) : Query (List InternalError)
  /-- Closes an open internal error. -/
  | updateInternalErrorStatus (id : Int) (status : ErrorStatus) : Query Unit
  | mergeStatistics (deltas : List StatisticsDelta) : Query Unit
  | findStatistics (contestId : Int) : Query (List StatisticsRow)
  | replaceStatistics (contestId : Int) (rows : List StatisticsRow) : Query Unit

/-- The judging once a judgehost has claimed it. -/
def Judging.claimedBy (j : Judging) (hostname : String) (now : Instant) : Judging :=
  { j with lifecycle := .claimed, server := some hostname, startTime := some now }

namespace Store

variable (s : Store)

/-! ## Judgehosts -/

/-- Registers a judgehost. -/
def insertJudgehost (hostname : String) (now : Instant) : Except Error (Judgehost × Store) :=
  if s.judgehosts.contains hostname then .error (.conflict (.judgehostExists hostname))
  else
    let host : Judgehost := ⟨hostname, true, some now⟩
    .ok (host, { s with judgehosts := s.judgehosts.insert host })

/-- Records that a judgehost took part in the protocol. -/
def touchJudgehost (hostname : String) (now : Instant) : Store :=
  let touch (h : Judgehost) : Judgehost := { h with pollTime := some now }
  { s with judgehosts := s.judgehosts.modify hostname touch fun _ => rfl }

/-- Switches a judgehost on or off. -/
def setJudgehostActive (hostname : String) (active : Bool) : Store :=
  let switch (h : Judgehost) : Judgehost := { h with active }
  { s with judgehosts := s.judgehosts.modify hostname switch fun _ => rfl }

/-! ## Problems, languages and testcases -/

/-- Switches a problem on or off. -/
def setProblemAllowed (id : Int) (allow : Bool) : Store :=
  let switch (p : Problem) : Problem := { p with allowJudge := allow }
  { s with problems := s.problems.modify id switch fun _ => rfl }

/-- Switches a language on or off. -/
def setLanguageAllowed (id : String) (allow : Bool) : Store :=
  let switch (l : Language) : Language := { l with allowJudge := allow }
  { s with languages := s.languages.modify id switch fun _ => rfl }

/-- Removes a testcase and its runs. -/
def deleteTestcase (id : Int) : Nat × Store :=
  (s.runs.rows.countP fun r => r.testcaseId = id,
    { s with
      runs := s.runs.keep fun r => r.testcaseId ≠ id
      testcases := s.testcases.keep fun t => t.id ≠ id })

/-! ## Submissions and judgings -/

/-- Moves submissions into a rejudging or out of any. -/
def setSubmissionsRejudging (f : SubmissionFilter) (rejudgingId : Option Int) : Nat × Store :=
  let move (r : Submission) : Submission := { r with rejudgingId }
  (s.submissions.rows.countP f.admits,
    { s with submissions := s.submissions.update f.admits move fun _ => rfl })

/-- Queues a judging under the next id. -/
def insertJudging (new : NewJudging) : Except Error (Judging × Store) :=
  if s.submissions.contains new.submissionId then
    let judging := new.queued (s.lastJudging + 1)
    .ok (judging,
      { s with judgings := s.judgings.insert judging, lastJudging := s.lastJudging + 1 })
  else .error (.conflict (.noSubmission new.submissionId))

/-- Writes back a judging but for its counted flag. -/
def updateJudging (j : Judging) : Except Error Store :=
  let write (e : Judging) : Judging := { j with id := e.id, counted := e.counted }
  if s.judgings.contains j.id then
    .ok { s with judgings := s.judgings.modify j.id write fun _ => rfl }
  else .error (.notFound (.judging j.id))

/-- Patches the judgings that a filter admits. -/
def updateJudgings (f : JudgingFilter) (p : JudgingPatch) : Nat × Store :=
  (s.judgings.rows.countP f.admits,
    { s with judgings := s.judgings.update f.admits p.apply fun _ => rfl })

/-- Removes the judgings that a filter admits, with their runs. -/
def deleteJudgings (f : JudgingFilter) : Nat × Store :=
  let doomed := (s.judgings.filter f.admits).map Judging.id
  (doomed.length,
    { s with
      runs := s.runs.keep fun r => !doomed.contains r.judgingId
      judgings := s.judgings.keep fun j => !f.admits j })

/-- Sets the counted flag of the judgings that a filter admits where it
differs. -/
def setJudgingsCounted (f : JudgingFilter) (counted : Bool) : List Judging × Store :=
  let differs (j : Judging) : Bool := j.counted ≠ counted && f.admits j
  let flag (j : Judging) : Judging := { j with counted }
  ((s.judgings.filter differs).map flag,
    { s with judgings := s.judgings.update differs flag fun _ => rfl })

/-- Adds progress characters to a judging. -/
def appendRunVerdicts (id : Int) (fragment : String) : Except Error Store :=
  let append (j : Judging) : Judging := { j with runVerdicts := j.runVerdicts ++ fragment }
  if s.judgings.contains id then
    .ok { s with judgings := s.judgings.modify id append fun _ => rfl }
  else .error (.notFound (.judging id))

/-- Hands the first judging that may be handed out to a judgehost. -/
def claimNextJudging (hostname : String) (now : Instant) : Option Judging × Store :=
  match s.nextDispatchable with
  | none => (none, s)
  | some j =>
    (some (j.claimedBy hostname now),
      { s with judgings := s.judgings.modify j.id (·.claimedBy hostname now) fun _ => rfl })

/-- Records a run under the next id. -/
def insertRun (new : NewRun) : Run × Store :=
  let run := new.recorded (s.lastRun + 1)
  (run, { s with runs := s.runs.insert run, lastRun := s.lastRun + 1 })

/-! ## Rejudgings and internal errors -/

/-- Opens a rejudging under the next id. -/
def insertRejudging (new : NewRejudging) (now : Instant) : Rejudging × Store :=
  let rejudging := new.opened (s.lastRejudging + 1) now
  (rejudging,
    { s with
      rejudgings := s.rejudgings.insert rejudging
      lastRejudging := s.lastRejudging + 1 })

/-- Writes back a rejudging, unless the stored one has been decided. -/
def updateRejudging (r : Rejudging) : Except Error Store :=
  let write (e : Rejudging) : Rejudging := { r with id := e.id }
  match s.rejudgings.find? r.id with
  | none => .error (.notFound (.rejudging r.id))
  | some stored =>
    if stored.applied.isSome then .error (.conflict (.decided r.id))
    else .ok { s with rejudgings := s.rejudgings.modify r.id write fun _ => rfl }

/-- Records an internal error under the next id. -/
def insertInternalError (new : NewInternalError) : InternalError × Store :=
  let error := new.opened (s.lastInternalError + 1)
  (error,
    { s with
      internalErrors := s.internalErrors.insert error
      lastInternalError := s.lastInternalError + 1 })

/-- Sets the status of an internal error, unless it has been closed. -/
def updateInternalErrorStatus (id : Int) (status : ErrorStatus) : Except Error Store :=
  let write (e : InternalError) : InternalError := { e with status }
  match s.internalErrors.find? id with
  | none => .error (.notFound (.internalError id))
  | some stored =>
    if stored.status = .opened then
      .ok { s with internalErrors := s.internalErrors.modify id write fun _ => rfl }
    else .error (.conflict (.closed id))

/-! ## Statistics -/

/-- Adds deltas to the statistics; a missing row starts from zero. -/
def mergeStatistics (ds : List StatisticsDelta) : Store :=
  { s with statistics := ds.foldl Table.count s.statistics }

/-- Replaces the statistics of a contest. -/
def replaceStatistics (contestId : Int) (rows : List StatisticsRow) : Store :=
  let others := s.statistics.keep fun r => r.contestId ≠ contestId
  { s with statistics := rows.foldl Table.insert others }

end Store

/-- Runs a query. -/
def Query.run {α : Type} (q : Query α) (s : Store) : Except Error (α × Store) :=
  match q with
  | findJudgehost hostname => .ok (s.judgehosts.find? hostname, s)
  | listJudgehosts => .ok (s.judgehosts.rows, s)
  | insertJudgehost hostname now => s.insertJudgehost hostname now
  | touchJudgehost hostname now => .ok ((), s.touchJudgehost hostname now)
  | setJudgehostActive hostname active =>
    .ok (s.judgehosts.contains hostname, s.setJudgehostActive hostname active)
  | findProblem id => .ok (s.problems.find? id, s)
  | setProblemAllowed id allow => .ok (s.problems.contains id, s.setProblemAllowed id allow)
  | findLanguage id => .ok (s.languages.find? id, s)
  | setLanguageAllowed id allow => .ok (s.languages.contains id, s.setLanguageAllowed id allow)
  | findExecutable id => .ok (s.executables.find? id, s)
  | listTestcases problemId => .ok (s.testcasesOf problemId, s)
  | findTestcase id => .ok (s.testcases.find? id, s)
  | deleteTestcase id => .ok (s.deleteTestcase id)
  | findSubmission id => .ok (s.submissions.find? id, s)
  | findSubmissions f => .ok (s.submissions.filter f.admits, s)
  | setSubmissionsRejudging f rejudgingId => .ok (s.setSubmissionsRejudging f rejudgingId)
  | findJudging id => .ok (s.judgings.find? id, s)
  | findJudgings f => .ok (s.judgings.filter f.admits, s)
  | insertJudging new => s.insertJudging new
  | updateJudging j => (s.updateJudging j).map fun s => ((), s)
  | updateJudgings f p => .ok (s.updateJudgings f p)
  | deleteJudgings f => .ok (s.deleteJudgings f)
  | setJudgingsCounted f counted => .ok (s.setJudgingsCounted f counted)
  | appendRunVerdicts id fragment => (s.appendRunVerdicts id fragment).map fun s => ((), s)
  | claimNextJudging hostname now => .ok (s.claimNextJudging hostname now)
  | insertRun new => .ok (s.insertRun new)
  | listRuns judgingId => .ok (s.runsOf judgingId, s)
  | insertRejudging new now => .ok (s.insertRejudging new now)
  | findRejudging id => .ok (s.rejudgings.find? id, s)
  | updateRejudging r => (s.updateRejudging r).map fun s => ((), s)
  | insertInternalError new => .ok (s.insertInternalError new)
  | findInternalError id => .ok (s.internalErrors.find? id, s)
  | listInternalErrors status =>
    .ok (s.internalErrors.filter fun e => status.all fun st => e.status = st, s)
  | updateInternalErrorStatus id status =>
    (s.updateInternalErrorStatus id status).map fun s => ((), s)
  | mergeStatistics ds => .ok ((), s.mergeStatistics ds)
  | findStatistics contestId => .ok (s.statistics.filter fun r => r.contestId = contestId, s)
  | replaceStatistics contestId rows => .ok ((), s.replaceStatistics contestId rows)

end JudgeQueue
