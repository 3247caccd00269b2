import JudgeQueue.Transaction
/-!
# Looking rows up

What requests begin with: rows that have to exist, and the heartbeat of the
judgehost that calls.
-/

namespace JudgeQueue

open Transaction

/-- The submission of an id. -/
def loadSubmission (id : Int) : Transaction Submission := do
  need (.notFound (.submission id)) (← ask (.findSubmission id))

/-- The judging of an id. -/
def loadJudging (id : Int) : Transaction Judging := do
  need (.notFound (.judging id)) (← ask (.findJudging id))

/-- Records that a judgehost called, and answers whether it may get work: a
judgehost that is unknown or switched off may not. -/
def heartbeat (hostname : String) (now : Instant) : Transaction Bool := do
  match ← ask (.findJudgehost hostname) with
  | none => pure false
  | some host =>
    ask (.touchJudgehost hostname now)
    pure host.active

end JudgeQueue
