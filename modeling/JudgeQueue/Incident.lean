import JudgeQueue.Recovery
/-!
# Incidents

Internal errors are recorded, switch off what they name, and send the
judging they name back to the queue. Closing one as resolved switches its
target on again.
-/

namespace JudgeQueue

open Transaction

/-- A failure as it is reported. -/
structure IncidentReport where
  description : String
  judgehostLog : String
  disabled : Json
  judgingId : Option Int
  contestId : Option Int

/-- What a report led to. -/
structure RaisedError where
  error : InternalError
  target : DisableTarget
  requeued : Option Requeued

/-- What closing an internal error led to. -/
structure ClosedError where
  error : InternalError
  /-- The target that was switched on again. -/
  reenabled : Option DisableTarget

/-- Switches a target on or off. Answers whether there is such a target. -/
def setTargetEnabled (target : DisableTarget) (enabled : Bool) : Transaction Bool :=
  match target with
  | .language id => ask (.setLanguageAllowed id enabled)
  | .judgehost hostname => ask (.setJudgehostActive hostname enabled)
  | .problem id => ask (.setProblemAllowed id enabled)
  | .unknown => pure false

/-- Requeues the judging of an id if a judgehost holds it. -/
def requeueIfClaimed (judgingId : Int) (now : Instant) : Transaction (Option Requeued) := do
  match ← ask (.findJudging judgingId) with
  | some j => if j.isClaimed then some <$> requeue j now else pure none
  | none => pure none

namespace Incident

/-- Records a failure, switches off its target and requeues its judging. -/
def report (r : IncidentReport) (now : Instant) : Transaction (Ending RaisedError) := do
  let target := DisableTarget.ofValue r.disabled
  let error ← ask (.insertInternalError
    ⟨r.contestId, r.judgingId, r.description, r.judgehostLog, now, r.disabled⟩)
  let _ ← setTargetEnabled target false
  let requeued ← match r.judgingId with
    | some id => requeueIfClaimed id now
    | none => pure none
  commit ⟨error, target, requeued⟩
    (.internalErrorRaised error.id error.judgingId target.kind ::
      (requeued.map Requeued.event).toList)

/-- Closes an open internal error. Resolving it switches its target on
again, ignoring it leaves the target off. -/
def resolve (id : Int) (status : ErrorStatus) : Transaction (Ending ClosedError) := do
  unlessError (status ≠ .opened) (.invalidInput .notClosing)
  let error ← need (.notFound (.internalError id)) (← ask (.findInternalError id))
  unlessError (error.status = .opened) (.conflict (.alreadyClosed id error.status))
  ask (.updateInternalErrorStatus id status)
  let error := { error with status }
  if status = .resolved then
    let _ ← setTargetEnabled error.target true
    commit ⟨error, some error.target⟩ []
  else commit ⟨error, none⟩ []

/-- The internal errors of a status, or all of them. -/
def list (status : Option ErrorStatus) : Transaction (Ending (List InternalError)) := do
  commit (← ask (.listInternalErrors status)) []

end Incident

end JudgeQueue
