import JudgeQueue.Judging
import JudgeQueue.Submission
/-!
# Filters and patches

A filter says which judgings or submissions a change is about; a field that
is not set admits all of them. A patch says what changes about a judging.
-/

namespace JudgeQueue

/-- Which judgings are meant. -/
structure JudgingFilter where
  ids : Option (List Int) := none
  submissionIds : Option (List Int) := none
  rejudgingId : Option Int := none
  lifecycle : Option Lifecycle := none
  server : Option String := none
  active : Option Bool := none
  counted : Option Bool := none
deriving DecidableEq, Repr

namespace JudgingFilter

/-- Whether the filter admits a judging. -/
def admits (f : JudgingFilter) (j : Judging) : Bool :=
  f.ids.all (·.contains j.id) &&
    f.submissionIds.all (·.contains j.submissionId) &&
    f.rejudgingId.all (fun id => j.rejudgingId = some id) &&
    f.lifecycle.all (fun l => j.lifecycle = l) &&
    f.server.all (fun s => j.server = some s) &&
    f.active.all (fun a => j.active = a) &&
    f.counted.all (fun c => j.counted = c)

/-- The judgings of some ids. -/
def ofIds (ids : List Int) : JudgingFilter :=
  { ids := some ids }

/-- The judgings of some submissions. -/
def ofSubmissions (ids : List Int) : JudgingFilter :=
  { submissionIds := some ids }

/-- The candidates of a rejudging. -/
def ofRejudging (id : Int) : JudgingFilter :=
  { rejudgingId := some id }

end JudgingFilter

/-- What changes about a judging. A field that is not set stays; the two
links can also be cleared. -/
structure JudgingPatch where
  active : Option Bool := none
  lifecycle : Option Lifecycle := none
  verdict : Option Verdict := none
  rejudgingId : Option (Option Int) := none
  previousJudgingId : Option (Option Int) := none
  /-- A stop time for a judging that has none. -/
  stopTimeIfUnset : Option Instant := none
deriving DecidableEq, Repr

namespace JudgingPatch

/-- The judging after the change. -/
def apply (p : JudgingPatch) (j : Judging) : Judging :=
  { j with
    active := p.active.getD j.active
    lifecycle := p.lifecycle.getD j.lifecycle
    verdict := p.verdict.or j.verdict
    rejudgingId := p.rejudgingId.getD j.rejudgingId
    previousJudgingId := p.previousJudgingId.getD j.previousJudgingId
    stopTime := j.stopTime.or p.stopTimeIfUnset }

/-- Ends a judging without a result: it speaks for nothing any more and
belongs to no rejudging. -/
def abandon (now : Instant) : JudgingPatch where
  active := some false
  lifecycle := some .finalized
  verdict := some .undefinedError
  rejudgingId := some none
  previousJudgingId := some none
  stopTimeIfUnset := some now

/-- Makes a judging the active one of its submission, or not. -/
def setActive (active : Bool) : JudgingPatch :=
  { active := some active }

end JudgingPatch

/-- Which submissions are meant. -/
structure SubmissionFilter where
  ids : Option (List Int) := none
  contestId : Option Int := none
  problemId : Option Int := none
  /-- The rejudging, or none for submissions outside of any. -/
  rejudgingId : Option (Option Int) := none
deriving DecidableEq, Repr

namespace SubmissionFilter

/-- Whether the filter admits a submission. -/
def admits (f : SubmissionFilter) (s : Submission) : Bool :=
  f.ids.all (·.contains s.id) &&
    f.contestId.all (fun c => s.contestId = c) &&
    f.problemId.all (fun p => s.problemId = p) &&
    f.rejudgingId.all (fun r => s.rejudgingId = r)

/-- The submissions of some ids. -/
def ofIds (ids : List Int) : SubmissionFilter :=
  { ids := some ids }

/-- The submissions of a contest. -/
def ofContest (id : Int) : SubmissionFilter :=
  { contestId := some id }

/-- The submissions of a problem. -/
def ofProblem (id : Int) : SubmissionFilter :=
  { problemId := some id }

/-- The submissions that a rejudging holds candidates for. -/
def ofRejudging (id : Int) : SubmissionFilter :=
  { rejudgingId := some (some id) }

end SubmissionFilter

end JudgeQueue
