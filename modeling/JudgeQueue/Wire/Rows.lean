import JudgeQueue.Catalog
import JudgeQueue.Judgehost
import JudgeQueue.Run
import JudgeQueue.Statistics
import JudgeQueue.Wire.Names
/-!
# Rows on the wire

Each kind of row as a record: how it is written, and the form by which it is
read. A form lists the fields in the order of the writing.
-/

namespace JudgeQueue

open Json (Form Reader)

/-! ## Judgings and runs -/

instance : ToJson Judging where
  toJson j := .object [
    ("id", toJson j.id),
    ("submission_id", toJson j.submissionId),
    ("active", toJson j.active),
    ("full_test", toJson j.fullTest),
    ("server", toJson j.server),
    ("lifecycle", toJson j.lifecycle),
    ("verdict", toJson j.verdict),
    ("start_time", toJson j.startTime),
    ("stop_time", toJson j.stopTime),
    ("execute_time", toJson j.executeTime),
    ("execute_memory", toJson j.executeMemory),
    ("compile_output", toJson j.compileOutput),
    ("total_score", toJson j.totalScore),
    ("run_verdicts", toJson j.runVerdicts),
    ("rejudging_id", toJson j.rejudgingId),
    ("previous_judging_id", toJson j.previousJudgingId),
    ("counted", toJson j.counted)]

/-- The fields of a judging. -/
def Judging.form : Form Judging :=
  Judging.mk <$> .required "id" .int64
    <*> .required "submission_id" .int64
    <*> .required "active" .bool
    <*> .required "full_test" .bool
    <*> .optional "server" .text
    <*> .required "lifecycle" Lifecycle.reader
    <*> .optional "verdict" Verdict.reader
    <*> .optional "start_time" Instant.reader
    <*> .optional "stop_time" Instant.reader
    <*> .optional "execute_time" .float
    <*> .optional "execute_memory" .int64
    <*> .optional "compile_output" .text
    <*> .required "total_score" .float
    <*> .required "run_verdicts" .text
    <*> .optional "rejudging_id" .int64
    <*> .optional "previous_judging_id" .int64
    <*> .defaulted "counted" .bool false

instance : ToJson Run where
  toJson r := .object [
    ("id", toJson r.id),
    ("judging_id", toJson r.judgingId),
    ("testcase_id", toJson r.testcaseId),
    ("verdict", toJson r.verdict),
    ("execute_time", toJson r.executeTime),
    ("execute_memory", toJson r.executeMemory),
    ("complete_time", toJson r.completeTime)]

/-- The fields of a run. -/
def Run.form : Form Run :=
  Run.mk <$> .required "id" .int64
    <*> .required "judging_id" .int64
    <*> .required "testcase_id" .int64
    <*> .required "verdict" Verdict.reader
    <*> .required "execute_time" .float
    <*> .required "execute_memory" .int64
    <*> .required "complete_time" Instant.reader

instance : ToJson NewJudging where
  toJson n := .object [
    ("submission_id", toJson n.submissionId),
    ("active", toJson n.active),
    ("full_test", toJson n.fullTest),
    ("rejudging_id", toJson n.rejudgingId),
    ("previous_judging_id", toJson n.previousJudgingId)]

/-! ## Submissions and the catalog -/

instance : ToJson Submission where
  toJson s := .object [
    ("id", toJson s.id),
    ("contest_id", toJson s.contestId),
    ("team_id", toJson s.teamId),
    ("problem_id", toJson s.problemId),
    ("language_id", toJson s.languageId),
    ("submit_time", toJson s.submitTime),
    ("expected_result", toJson s.expectedResult),
    ("ignored", toJson s.ignored),
    ("rejudging_id", toJson s.rejudgingId)]

/-- The fields of a submission. -/
def Submission.form : Form Submission :=
  Submission.mk <$> .required "id" .int64
    <*> .required "contest_id" .int64
    <*> .required "team_id" .int64
    <*> .required "problem_id" .int64
    <*> .required "language_id" .text
    <*> .required "submit_time" Instant.reader
    <*> .optional "expected_result" Verdict.reader
    <*> .required "ignored" .bool
    <*> .optional "rejudging_id" .int64

instance : ToJson Problem where
  toJson p := .object [
    ("id", toJson p.id),
    ("name", toJson p.name),
    ("time_limit", toJson p.timeLimit),
    ("memory_limit", toJson p.memoryLimit),
    ("output_limit", toJson p.outputLimit),
    ("run_script", toJson p.runScript),
    ("compare_script", toJson p.compareScript),
    ("allow_judge", toJson p.allowJudge)]

/-- The fields of a problem. -/
def Problem.form : Form Problem :=
  Problem.mk <$> .required "id" .int64
    <*> .required "name" .text
    <*> .required "time_limit" .float
    <*> .optional "memory_limit" .int64
    <*> .optional "output_limit" .int64
    <*> .optional "run_script" .text
    <*> .optional "compare_script" .text
    <*> .required "allow_judge" .bool

instance : ToJson Language where
  toJson l := .object [
    ("id", toJson l.id),
    ("name", toJson l.name),
    ("compile_script", toJson l.compileScript),
    ("time_factor", toJson l.timeFactor),
    ("allow_judge", toJson l.allowJudge)]

/-- The fields of a language. -/
def Language.form : Form Language :=
  Language.mk <$> .required "id" .text
    <*> .required "name" .text
    <*> .required "compile_script" .text
    <*> .required "time_factor" .float
    <*> .required "allow_judge" .bool

instance : ToJson Executable where
  toJson e := .object [
    ("id", toJson e.id),
    ("description", toJson e.description),
    ("content_hash", toJson e.contentHash)]

/-- The fields of an executable. -/
def Executable.form : Form Executable :=
  Executable.mk <$> .required "id" .text
    <*> .required "description" .text
    <*> .required "content_hash" .text

instance : ToJson Testcase where
  toJson t := .object [
    ("id", toJson t.id),
    ("problem_id", toJson t.problemId),
    ("rank", toJson t.rank),
    ("point", toJson t.point),
    ("description", toJson t.description),
    ("input_hash", toJson t.inputHash),
    ("output_hash", toJson t.outputHash)]

/-- The fields of a testcase. -/
def Testcase.form : Form Testcase :=
  Testcase.mk <$> .required "id" .int64
    <*> .required "problem_id" .int64
    <*> .required "rank" .int32
    <*> .required "point" .float
    <*> .optional "description" .text
    <*> .required "input_hash" .text
    <*> .required "output_hash" .text

/-! ## Judgehosts, rejudgings and internal errors -/

instance : ToJson Judgehost where
  toJson h := .object [
    ("hostname", toJson h.hostname),
    ("active", toJson h.active),
    ("poll_time", toJson h.pollTime)]

/-- The fields of a judgehost. -/
def Judgehost.form : Form Judgehost :=
  Judgehost.mk <$> .required "hostname" .text
    <*> .required "active" .bool
    <*> .optional "poll_time" Instant.reader

instance : ToJson Rejudging where
  toJson r := .object [
    ("id", toJson r.id),
    ("contest_id", toJson r.contestId),
    ("reason", toJson r.reason),
    ("start_time", toJson r.startTime),
    ("end_time", toJson r.endTime),
    ("issued_by", toJson r.issuedBy),
    ("operated_by", toJson r.operatedBy),
    ("applied", toJson r.applied)]

/-- The fields of a rejudging. -/
def Rejudging.form : Form Rejudging :=
  Rejudging.mk <$> .required "id" .int64
    <*> .required "contest_id" .int64
    <*> .required "reason" .text
    <*> .required "start_time" Instant.reader
    <*> .optional "end_time" Instant.reader
    <*> .optional "issued_by" .int64
    <*> .optional "operated_by" .int64
    <*> .optional "applied" .bool

instance : ToJson InternalError where
  toJson e := .object [
    ("id", toJson e.id),
    ("contest_id", toJson e.contestId),
    ("judging_id", toJson e.judgingId),
    ("description", toJson e.description),
    ("judgehost_log", toJson e.judgehostLog),
    ("time", toJson e.time),
    ("disabled", e.disabled),
    ("status", toJson e.status)]

/-- The fields of an internal error. -/
def InternalError.form : Form InternalError :=
  InternalError.mk <$> .required "id" .int64
    <*> .optional "contest_id" .int64
    <*> .optional "judging_id" .int64
    <*> .required "description" .text
    <*> .required "judgehost_log" .text
    <*> .required "time" Instant.reader
    <*> .required "disabled" .any
    <*> .required "status" ErrorStatus.reader

/-! ## Progress -/

instance : ToJson Progress where
  toJson p := .object [
    ("queued", toJson p.queued),
    ("claimed", toJson p.claimed),
    ("finalized", toJson p.finalized)]

/-- The fields of the progress of a rejudging. -/
def Progress.form : Form Progress :=
  Progress.mk <$> .required "queued" .nat64
    <*> .required "claimed" .nat64
    <*> .required "finalized" .nat64

/-! ## Statistics -/

instance : ToJson StatisticsKey where
  toJson k := .object [
    ("contest_id", toJson k.contestId),
    ("team_id", toJson k.teamId),
    ("problem_id", toJson k.problemId)]

/-- The fields of a key of the statistics. -/
def StatisticsKey.form : Form StatisticsKey :=
  StatisticsKey.mk <$> .required "contest_id" .int64
    <*> .required "team_id" .int64
    <*> .required "problem_id" .int64

instance : ToJson StatisticsRow where
  toJson r := .object [
    ("contest_id", toJson r.contestId),
    ("team_id", toJson r.teamId),
    ("problem_id", toJson r.problemId),
    ("total_submission", toJson r.totalSubmission),
    ("accepted_submission", toJson r.acceptedSubmission)]

/-- The fields of a row of the statistics. -/
def StatisticsRow.form : Form StatisticsRow :=
  StatisticsRow.mk <$> .required "contest_id" .int64
    <*> .required "team_id" .int64
    <*> .required "problem_id" .int64
    <*> .required "total_submission" .int64
    <*> .required "accepted_submission" .int64

instance : ToJson StatisticsDelta where
  toJson d := .object [
    ("key", toJson d.statisticsKey),
    ("total", toJson d.total),
    ("accepted", toJson d.accepted)]

/-- The fields of a delta. -/
def StatisticsDelta.form : Form StatisticsDelta :=
  StatisticsDelta.mk <$> .required "key" StatisticsKey.form.read
    <*> .required "total" .int64
    <*> .required "accepted" .int64

end JudgeQueue
