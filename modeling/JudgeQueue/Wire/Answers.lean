import JudgeQueue.Operation
import JudgeQueue.Wire.Events
import JudgeQueue.Wire.Rows
/-!
# Answers on the wire

How the answers of operations are written.
-/

namespace JudgeQueue

/-! ## Dispatch -/

instance : ToJson ScriptRef where
  toJson s := .object [("id", toJson s.id), ("content_hash", toJson s.contentHash)]

instance : ToJson Payload where
  toJson p := .object [
    ("judging", toJson p.judging),
    ("submission", toJson p.submission),
    ("problem", toJson p.problem),
    ("language", toJson p.language),
    ("compile_script", toJson p.compileScript),
    ("run_script", toJson p.runScript),
    ("compare_script", toJson p.compareScript),
    ("testcases", toJson p.testcases)]

instance : ToJson Unfinished where
  toJson u := .object [
    ("contest_id", toJson u.contestId),
    ("submission_id", toJson u.submissionId),
    ("judging_id", toJson u.judgingId)]

instance : ToJson Registration where
  toJson r := .object [("judgehost", toJson r.judgehost), ("unfinished", toJson r.unfinished)]

/-! ## Recovery and internal errors -/

instance : ToJson Requeued where
  toJson r := .object [("abandoned", toJson r.abandoned), ("replacement", toJson r.replacement)]

instance : ToJson RaisedError where
  toJson r := .object [
    ("error", toJson r.error),
    ("target", toJson r.target),
    ("requeued", toJson r.requeued)]

instance : ToJson ClosedError where
  toJson c := .object [("error", toJson c.error), ("reenabled", toJson c.reenabled)]

/-! ## Rejudgings -/

instance : ToJson RejudgingDetails where
  toJson d := .object [("rejudging", toJson d.rejudging), ("progress", toJson d.progress)]

instance : ToJson Cancellation where
  toJson c := .object [
    ("rejudging", toJson c.rejudging),
    ("deleted", toJson c.deleted),
    ("abandoned", toJson c.abandoned)]

/-! ## Testcases -/

/-- A refusal carries its reason. -/
instance : ToJson TestcaseDeletion where
  toJson d :=
    match d with
    | .deleted runsRemoved =>
      .object [("status", .text "deleted"), ("runs_removed", toJson runsRemoved)]
    | .noTestcase _ | .inUse _ _ =>
      .object [("status", .text "refused"), ("reason", toJson d.reason?)]

end JudgeQueue
