import JudgeQueue.Catalog
import JudgeQueue.InternalError
import JudgeQueue.Judgehost
import JudgeQueue.Rejudging
import JudgeQueue.Run
import JudgeQueue.Statistics
/-!
# The store

All rows that the service keeps, in one table a kind, and the last id given
to a row of each kind that the service numbers itself. An id is never given
twice, so a row that is gone leaves its number unused.
-/

namespace JudgeQueue

instance : Keyed Judgehost String := ⟨Judgehost.hostname⟩

instance : Keyed Problem Int := ⟨Problem.id⟩

instance : Keyed Language String := ⟨Language.id⟩

instance : Keyed Executable String := ⟨Executable.id⟩

instance : Keyed Testcase Int := ⟨Testcase.id⟩

instance : Keyed Submission Int := ⟨Submission.id⟩

instance : Keyed Judging Int := ⟨Judging.id⟩

instance : Keyed Run Int := ⟨Run.id⟩

instance : Keyed Rejudging Int := ⟨Rejudging.id⟩

instance : Keyed InternalError Int := ⟨InternalError.id⟩

/-- All rows of the service. -/
structure Store where
  judgehosts : Table Judgehost := ∅
  problems : Table Problem := ∅
  languages : Table Language := ∅
  executables : Table Executable := ∅
  testcases : Table Testcase := ∅
  submissions : Table Submission := ∅
  judgings : Table Judging := ∅
  runs : Table Run := ∅
  rejudgings : Table Rejudging := ∅
  internalErrors : Table InternalError := ∅
  statistics : Table StatisticsRow := ∅
  lastJudging : Int := 0
  lastRun : Int := 0
  lastRejudging : Int := 0
  lastInternalError : Int := 0

instance : Inhabited Store := ⟨{}⟩

/-- Rows that contest administration supplies. -/
structure Seed where
  problems : List Problem := []
  languages : List Language := []
  executables : List Executable := []
  testcases : List Testcase := []
  submissions : List Submission := []

namespace Store

/-- Adds supplied rows; a row takes the place of one with its key. -/
def seed (s : Store) (rows : Seed) : Store :=
  { s with
    problems := rows.problems.foldl Table.insert s.problems
    languages := rows.languages.foldl Table.insert s.languages
    executables := rows.executables.foldl Table.insert s.executables
    testcases := rows.testcases.foldl Table.insert s.testcases
    submissions := rows.submissions.foldl Table.insert s.submissions }

/-- Whether a judging may be handed out: its problem and its language exist
and are switched on. -/
def isDispatchable (s : Store) (j : Judging) : Bool :=
  match s.submissions.find? j.submissionId with
  | none => false
  | some submission =>
    (s.problems.find? submission.problemId).any Problem.allowJudge &&
      (s.languages.find? submission.languageId).any Language.allowJudge

/-- The first queued judging that may be handed out. -/
def nextDispatchable (s : Store) : Option Judging :=
  s.judgings.rows.find? fun j => j.isQueued && s.isDispatchable j

/-- The testcases of a problem in the order of grading. -/
def testcasesOf (s : Store) (problemId : Int) : List Testcase :=
  (s.testcases.filter fun t => t.problemId = problemId).mergeSort Testcase.before

/-- The runs of a judging in the order in which they were recorded. -/
def runsOf (s : Store) (judgingId : Int) : List Run :=
  s.runs.filter fun r => r.judgingId = judgingId

/-- How many problems and languages are switched on. -/
def enabledTargets (s : Store) : Nat :=
  s.problems.rows.countP Problem.allowJudge + s.languages.rows.countP Language.allowJudge

end Store

end JudgeQueue
