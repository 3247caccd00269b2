import JudgeQueue.Judging
import JudgeQueue.Submission
/-!
# Rejudgings

A rejudging is a batch of candidate judgings for submissions of one contest.
While it is open the candidates are graded beside the active judgings;
applying it makes them the active ones, cancelling it drops them.
-/

namespace JudgeQueue

/-- A batch of candidate judgings. -/
structure Rejudging where
  id : Int
  contestId : Int
  reason : String
  startTime : Instant
  endTime : Option Instant
  issuedBy : Option Int
  operatedBy : Option Int
  /-- The decision: whether the batch was applied rather than cancelled. -/
  applied : Option Bool
deriving DecidableEq, Repr

/-- What has become of a rejudging. -/
inductive RejudgingState
  | opened
  | applied
  | cancelled
deriving DecidableEq, Repr

namespace RejudgingState

/-- The name by which a state is sent. -/
def name : RejudgingState → String
  | opened => "open"
  | applied => "applied"
  | cancelled => "cancelled"

/-- The name of a state within a sentence. -/
def label : RejudgingState → String
  | opened => "Open"
  | applied => "Applied"
  | cancelled => "Cancelled"

end RejudgingState

namespace Rejudging

/-- What has become of the rejudging. -/
def state (r : Rejudging) : RejudgingState :=
  match r.applied with
  | none => .opened
  | some true => .applied
  | some false => .cancelled

/-- Whether the rejudging awaits its decision. -/
def isOpen (r : Rejudging) : Bool :=
  r.applied.isNone

/-- The rejudging with a decision. -/
def decide (r : Rejudging) (applied : Bool) (now : Instant) (operator : Option Int) : Rejudging :=
  { r with applied := some applied, endTime := some now, operatedBy := operator }

end Rejudging

/-- What is chosen about a rejudging when it is opened. -/
structure NewRejudging where
  contestId : Int
  reason : String
  issuedBy : Option Int
deriving DecidableEq, Repr

/-- The open rejudging of an id. -/
def NewRejudging.opened (n : NewRejudging) (id : Int) (now : Instant) : Rejudging :=
  ⟨id, n.contestId, n.reason, now, none, n.issuedBy, none, none⟩

/-- How many candidates of a rejudging have come how far. -/
structure Progress where
  queued : Nat := 0
  claimed : Nat := 0
  finalized : Nat := 0
deriving DecidableEq, Repr

namespace Progress

/-- The candidates that have not ended. -/
def todo (p : Progress) : Nat :=
  p.queued + p.claimed

/-- The progress of some candidates. -/
def ofCandidates (candidates : List Judging) : Progress where
  queued := candidates.countP Judging.isQueued
  claimed := candidates.countP Judging.isClaimed
  finalized := candidates.countP Judging.isFinalized

end Progress

/-- Which submissions of a contest to rejudge. A criterion that is not set
admits all; verdict and judgehost are those of the active judging. -/
structure Selection where
  contestId : Int
  submissionIds : Option (List Int) := none
  teamIds : Option (List Int) := none
  problemIds : Option (List Int) := none
  languageIds : Option (List String) := none
  verdicts : Option (List Verdict) := none
  judgehosts : Option (List String) := none
deriving DecidableEq, Repr

namespace Selection

/-- Whether a criterion admits a value. -/
def allows {α : Type} [DecidableEq α] (criterion : Option (List α)) (a : α) : Bool :=
  criterion.all fun as => as.contains a

/-- Whether a criterion admits a value that may be missing. A missing value
meets no criterion that is set. -/
def allowsSome {α : Type} [DecidableEq α] (criterion : Option (List α)) (a : Option α) : Bool :=
  criterion.all fun as => a.any fun a => as.contains a

/-- Whether a submission with this active judging is selected. -/
def selects (s : Selection) (submission : Submission) (active : Judging) : Bool :=
  submission.contestId = s.contestId &&
    allows s.submissionIds submission.id &&
    allows s.teamIds submission.teamId &&
    allows s.problemIds submission.problemId &&
    allows s.languageIds submission.languageId &&
    allowsSome s.verdicts active.verdict &&
    allowsSome s.judgehosts active.server

end Selection

end JudgeQueue
