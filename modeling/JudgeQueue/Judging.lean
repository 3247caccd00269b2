import JudgeQueue.Time.Instant
import JudgeQueue.Verdict
/-!
# Judgings

A judging is one attempt at grading a submission. It waits in the queue, is
claimed by a judgehost, and ends finalized with a verdict. At most one
judging of a submission is the active one, whose verdict is the
submission's.
-/

namespace JudgeQueue

/-- How far a judging has come. -/
inductive Lifecycle
  | queued
  | claimed
  | finalized
deriving DecidableEq, Repr, Inhabited

namespace Lifecycle

/-- The name by which a lifecycle is stored and sent. -/
def name : Lifecycle → String
  | queued => "queued"
  | claimed => "claimed"
  | finalized => "finalized"

/-- The lifecycle of a name. -/
def ofName? : String → Option Lifecycle
  | "queued" => some queued
  | "claimed" => some claimed
  | "finalized" => some finalized
  | _ => none

end Lifecycle

/-- One attempt at grading a submission. -/
structure Judging where
  id : Int
  submissionId : Int
  /-- Whether this attempt speaks for its submission. -/
  active : Bool
  /-- Whether every testcase is graded, also after a failure. -/
  fullTest : Bool
  /-- The judgehost that claimed the judging. -/
  server : Option String
  lifecycle : Lifecycle
  verdict : Option Verdict
  startTime : Option Instant
  stopTime : Option Instant
  /-- The longest run time, in seconds. -/
  executeTime : Option Float
  /-- The highest memory use of a run, in kilobytes. -/
  executeMemory : Option Int
  compileOutput : Option String
  totalScore : Float
  /-- One character for each run. -/
  runVerdicts : String
  /-- The rejudging that this attempt is a candidate of. -/
  rejudgingId : Option Int
  /-- The attempt that this one stands in for. -/
  previousJudgingId : Option Int
  /-- Whether the statistics include this attempt. -/
  counted : Bool
deriving DecidableEq, Repr

namespace Judging

/-- Whether the judging waits for a judgehost. -/
def isQueued (j : Judging) : Bool :=
  j.lifecycle = .queued

/-- Whether a judgehost holds the judging. -/
def isClaimed (j : Judging) : Bool :=
  j.lifecycle = .claimed

/-- Whether the judging has ended. -/
def isFinalized (j : Judging) : Bool :=
  j.lifecycle = .finalized

/-- Whether this judgehost holds the judging. -/
def isClaimedBy (j : Judging) (host : String) : Bool :=
  j.isClaimed && j.server = some host

/-- Whether the judging ended with an accepted verdict. -/
def isAccepted (j : Judging) : Bool :=
  j.isFinalized && j.verdict.any Verdict.isAccepted

/-- Whether the judging ended with a verdict that counts. -/
def hasCountedVerdict (j : Judging) : Bool :=
  j.isFinalized && j.verdict.any Verdict.isCounted

end Judging

/-- What is chosen about a judging when it is queued. -/
structure NewJudging where
  submissionId : Int
  active : Bool
  fullTest : Bool
  rejudgingId : Option Int
  previousJudgingId : Option Int
deriving DecidableEq, Repr

namespace NewJudging

/-- A fresh attempt that takes over the place of another. -/
def replacing (j : Judging) : NewJudging :=
  ⟨j.submissionId, j.active, j.fullTest, j.rejudgingId, j.previousJudgingId⟩

/-- The queued judging of an id. -/
def queued (n : NewJudging) (id : Int) : Judging where
  id := id
  submissionId := n.submissionId
  active := n.active
  fullTest := n.fullTest
  server := none
  lifecycle := .queued
  verdict := none
  startTime := none
  stopTime := none
  executeTime := none
  executeMemory := none
  compileOutput := none
  totalScore := 0.0
  runVerdicts := ""
  rejudgingId := n.rejudgingId
  previousJudgingId := n.previousJudgingId
  counted := false

end NewJudging

end JudgeQueue
