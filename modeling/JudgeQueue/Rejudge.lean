import JudgeQueue.Standings
/-!
# Rejudging

New judgings for submissions that have been judged before: at once, in
which case the old judgement is retracted, or as candidates of a rejudging,
which come into force together when it is applied and never if it is
cancelled. A submission has a candidate in at most one open rejudging.
-/

namespace JudgeQueue

open Transaction

/-- A rejudging with the progress of its candidates. -/
structure RejudgingDetails where
  rejudging : Rejudging
  progress : Progress
deriving DecidableEq, Repr

/-- What cancelling a rejudging did. -/
structure Cancellation where
  rejudging : Rejudging
  /-- How many queued candidates were removed. -/
  deleted : Nat
  /-- The candidates that a judgehost held. -/
  abandoned : List Int
deriving DecidableEq, Repr

namespace Rejudge

/-- The rejudging of an id, which has to be open. -/
def loadOpen (id : Int) : Transaction Rejudging := do
  let r ← need (.notFound (.rejudging id)) (← ask (.findRejudging id))
  unlessError r.isOpen (.conflict (.alreadyDecided id r.state))
  pure r

/-- The active judging of a submission among some judgings. -/
def activeOf (judgings : List Judging) (submissionId : Int) : Option Judging :=
  (judgings.filter fun j => j.submissionId = submissionId).getLast?

/-- The selected submissions, each with its active judging. -/
def matching (selection : Selection) (submissions : List Submission) (judgings : List Judging) :
    List (Submission × Judging) :=
  (submissions.filterMap fun s => (activeOf judgings s.id).map fun j => (s, j)).filter
    fun m => selection.selects m.1 m.2

/-- Deactivates judgings of a submission, takes what was counted of it out of
the statistics, and queues a fresh active judging. The deltas are left to
the caller to merge. -/
def replaceActive (submission : Submission) (current : List Judging) (fullTest : Bool) :
    Transaction (Judging × List StatisticsDelta) := do
  let _ ← ask (.updateJudgings (.ofIds (current.map Judging.id)) (.setActive false))
  let retracted ← Standings.uncount (.ofSubmissions [submission.id])
  let j ← ask (.insertJudging
    ⟨submission.id, true, fullTest, none, current.head?.map Judging.id⟩)
  pure (j, retracted)

/-- Replaces the active judgings of several submissions. -/
def replaceAll (fullTest : Bool) :
    List (Submission × Judging) → Transaction (List Judging × List StatisticsDelta)
  | [] => pure ([], [])
  | (s, current) :: rest => do
    let (j, ds) ← replaceActive s [current] (fullTest || s.requiresFullTest)
    let (js, dss) ← replaceAll fullTest rest
    pure (j :: js, ds ++ dss)

/-- Queues judgings one after another. -/
def insertAll : List NewJudging → Transaction (List Judging)
  | [] => pure []
  | new :: rest => do
    let j ← ask (.insertJudging new)
    let js ← insertAll rest
    pure (j :: js)

/-- The candidate of a rejudging that stands beside an active judging. -/
def candidate (rejudgingId : Int) (fullTest : Bool) (current : Judging) : NewJudging :=
  ⟨current.submissionId, false, fullTest || current.fullTest, some rejudgingId, some current.id⟩

/-- Opens a rejudging. -/
def create (new : NewRejudging) (now : Instant) : Transaction (Ending Rejudging) := do
  commit (← ask (.insertRejudging new now)) []

/-- A rejudging with its progress. -/
def get (id : Int) : Transaction (Ending RejudgingDetails) := do
  let r ← need (.notFound (.rejudging id)) (← ask (.findRejudging id))
  let candidates ← ask (.findJudgings (.ofRejudging id))
  commit ⟨r, .ofCandidates candidates⟩ []

/-- Refuses a rejudging that is decided or of another contest. -/
def checkRejudging (contestId : Int) : Option Int → Transaction Unit
  | none => pure ()
  | some id => do
    let r ← loadOpen id
    unlessError (r.contestId = contestId) (.invalidInput (.foreignRejudging id r.contestId))

/-- Queues judgings for the selected submissions that are in no rejudging:
candidates of a rejudging, or without one replacements of their active
judgings. -/
def batch (selection : Selection) (rejudgingId : Option Int) (fullTest : Bool) :
    Transaction (Ending (List Judging)) := do
  checkRejudging selection.contestId rejudgingId
  let submissions ← ask (.findSubmissions
    { contestId := some selection.contestId, rejudgingId := some none })
  let active ← ask (.findJudgings
    { submissionIds := some (submissions.map Submission.id), active := some true })
  let matched := matching selection submissions active
  match rejudgingId with
  | none =>
    let (judgings, retracted) ← replaceAll fullTest matched
    ask (.mergeStatistics (StatisticsDelta.mergeAll retracted))
    commit judgings []
  | some id =>
    let _ ← ask (.setSubmissionsRejudging (.ofIds (matched.map fun m => m.1.id)) (some id))
    let judgings ← insertAll (matched.map fun m => candidate id fullTest m.2)
    commit judgings []

/-- Makes every candidate of a rejudging the active judging of its
submission. All of them have to have ended. -/
def apply (id : Int) (operator : Option Int) (now : Instant) : Transaction (Ending Rejudging) := do
  let r ← loadOpen id
  let candidates ← ask (.findJudgings (.ofRejudging id))
  let unfinished := candidates.countP fun j => !j.isFinalized
  unlessError (unfinished = 0) (.conflict (.unfinished id unfinished))
  let submissionIds := candidates.map Judging.submissionId
  let candidateIds := candidates.map Judging.id
  let _ ← ask (.updateJudgings
    { submissionIds := some submissionIds, active := some true } (.setActive false))
  let retracted ← Standings.uncount (.ofSubmissions submissionIds)
  let _ ← ask (.updateJudgings (.ofIds candidateIds) (.setActive true))
  let counted ← Standings.count (.ofIds candidateIds)
  let _ ← ask (.setSubmissionsRejudging (.ofRejudging id) none)
  let decided := r.decide true now operator
  ask (.updateRejudging decided)
  ask (.mergeStatistics (StatisticsDelta.mergeAll (retracted ++ counted)))
  commit decided []

/-- Drops a rejudging: queued candidates are removed, claimed ones abandoned,
and those that have ended stay as history. -/
def cancel (id : Int) (operator : Option Int) (now : Instant) :
    Transaction (Ending Cancellation) := do
  let r ← loadOpen id
  let deleted ← ask (.deleteJudgings { rejudgingId := some id, lifecycle := some .queued })
  let claimed ← ask (.findJudgings { rejudgingId := some id, lifecycle := some .claimed })
  let abandoned := claimed.map Judging.id
  if !abandoned.isEmpty then
    let _ ← ask (.updateJudgings (.ofIds abandoned) (.abandon now))
  let _ ← ask (.setSubmissionsRejudging (.ofRejudging id) none)
  let decided := r.decide false now operator
  ask (.updateRejudging decided)
  commit ⟨decided, deleted, abandoned⟩
    (claimed.map fun j => .judgingFinished j.id j.submissionId)

/-- Judges a submission anew. -/
def submission (submissionId : Int) : Transaction (Ending Judging) := do
  let s ← loadSubmission submissionId
  match s.rejudgingId with
  | some rejudgingId => fail (.conflict (.inRejudging submissionId rejudgingId))
  | none =>
    let current ← ask (.findJudgings { submissionIds := some [submissionId], active := some true })
    let (j, retracted) ← replaceActive s current s.requiresFullTest
    ask (.mergeStatistics retracted)
    commit j []

end Rejudge

end JudgeQueue
