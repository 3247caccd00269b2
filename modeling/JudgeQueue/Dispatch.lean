import JudgeQueue.Incident
/-!
# Dispatch

The protocol by which judgehosts get work: they register, claim a judging,
ask for its testcases one by one, and report how compiling went. A judging
whose scripts are missing is put back, and what names the missing script is
switched off, so that the claim moves on to the next judging.
-/

namespace JudgeQueue

open Transaction

/-- A script as it is handed to a judgehost, which need not fetch content
it already has. -/
structure ScriptRef where
  id : String
  contentHash : String
deriving DecidableEq, Repr

/-- All that a judgehost needs to start grading. -/
structure Payload where
  judging : Judging
  submission : Submission
  problem : Problem
  language : Language
  compileScript : ScriptRef
  runScript : ScriptRef
  compareScript : ScriptRef
  testcases : List Testcase
deriving DecidableEq, Repr

/-- A judging that a restarted judgehost no longer holds. -/
structure Unfinished where
  contestId : Int
  submissionId : Int
  judgingId : Int
deriving DecidableEq, Repr

/-- The answer to a registration. -/
structure Registration where
  judgehost : Judgehost
  unfinished : List Unfinished
deriving DecidableEq, Repr

/-- The scripts that a judging is graded with. -/
structure Scripts where
  compile : ScriptRef
  run : ScriptRef
  compare : ScriptRef
deriving DecidableEq, Repr

/-- A script that does not exist, and what names it. -/
structure MissingScript where
  executableId : String
  owner : DisableTarget
deriving DecidableEq, Repr

namespace Dispatch

/-! ## Registration -/

/-- Says of each requeued judging what its judgehost left behind. -/
def unfinished : List Requeued → Transaction (List Unfinished)
  | [] => pure []
  | r :: rest => do
    let s ← loadSubmission r.abandoned.submissionId
    let us ← unfinished rest
    pure (⟨s.contestId, s.id, r.abandoned.id⟩ :: us)

/-- Registers a judgehost. One that is known has restarted, so what it held
returns to the queue. -/
def register (hostname : String) (now : Instant) : Transaction (Ending Registration) := do
  match ← ask (.findJudgehost hostname) with
  | none =>
    let host ← ask (.insertJudgehost hostname now)
    commit ⟨host, []⟩ []
  | some host =>
    ask (.touchJudgehost hostname now)
    let rs ← requeueHeldBy hostname now
    let left ← unfinished rs
    commit ⟨{ host with pollTime := some now }, left⟩ (rs.map Requeued.event)

/-! ## Claims -/

/-- The script of an id, or what is missing. -/
def findScript (id : String) (owner : DisableTarget) :
    Transaction (Except MissingScript ScriptRef) := do
  match ← ask (.findExecutable id) with
  | some e => pure (.ok ⟨e.id, e.contentHash⟩)
  | none => pure (.error ⟨id, owner⟩)

/-- The scripts of a problem and a language, or the first one missing. A
problem that names no script of its own uses the default one. -/
def resolveScripts (defaults : DefaultScripts) (problem : Problem) (language : Language) :
    Transaction (Except MissingScript Scripts) := do
  match ← findScript language.compileScript (.language language.id) with
  | .error missing => pure (.error missing)
  | .ok compile =>
    match ← findScript (problem.runScript.getD defaults.run) (.problem problem.id) with
    | .error missing => pure (.error missing)
    | .ok run =>
      match ← findScript (problem.compareScript.getD defaults.compare) (.problem problem.id) with
      | .error missing => pure (.error missing)
      | .ok compare => pure (.ok ⟨compile, run, compare⟩)

/-- Puts a claimed judging back in the queue, switches off what names the
missing script, and records that as an internal error. -/
def putBack (j : Judging) (contestId : Int) (missing : MissingScript) (now : Instant) :
    Transaction Event := do
  ask (.updateJudging { j with lifecycle := .queued, server := none, startTime := none })
  let _ ← setTargetEnabled missing.owner false
  let error ← ask (.insertInternalError
    { contestId := some contestId
      judgingId := none
      description := "Executable '" ++ missing.executableId ++ "' is missing"
      judgehostLog := ""
      time := now
      disabled := missing.owner.toValue })
  pure (.internalErrorRaised error.id none missing.owner.kind)

/-- Claims judgings until one has all its scripts or none is left. Every
judging that is put back switches something off, so as many rounds suffice
as there are targets switched on, and one more. -/
def claimRounds (defaults : DefaultScripts) (hostname : String) (now : Instant) :
    Nat → List Event → Transaction (Ending (Option Payload))
  | 0, _ => fail (.internal "no dispatchable judging left")
  | rounds + 1, raised => do
    match ← ask (.claimNextJudging hostname now) with
    | none => commit none raised
    | some j =>
      let submission ← loadSubmission j.submissionId
      let problem ← need (.notFound (.problem submission.problemId))
        (← ask (.findProblem submission.problemId))
      let language ← need (.notFound (.language submission.languageId))
        (← ask (.findLanguage submission.languageId))
      match ← resolveScripts defaults problem language with
      | .ok scripts =>
        let testcases ← ask (.listTestcases problem.id)
        commit
          (some ⟨j, submission, problem, language, scripts.compile, scripts.run, scripts.compare,
            testcases⟩)
          (raised ++ [.judgingBegun j.id j.submissionId hostname])
      | .error missing =>
        let event ← putBack j submission.contestId missing now
        claimRounds defaults hostname now rounds (raised ++ [event])

/-- Hands the first judging that can be graded to a judgehost. -/
def claimJudging (defaults : DefaultScripts) (rounds : Nat) (hostname : String) (now : Instant) :
    Transaction (Ending (Option Payload)) := do
  if ← heartbeat hostname now then claimRounds defaults hostname now rounds []
  else commit none []

/-! ## Testcases -/

/-- The first testcase without a run, unless a run has failed and the
judging is not graded in full. -/
def nextTestcase (fullTest : Bool) (testcases : List Testcase) (runs : List Run) :
    Option Testcase :=
  if !fullTest && runs.any (fun r => !r.verdict.isAccepted) then none
  else testcases.find? fun t => !runs.any fun r => r.testcaseId = t.id

/-- The next testcase of a judging that the judgehost holds. -/
def claimTestcase (hostname : String) (judgingId : Int) (now : Instant) :
    Transaction (Ending (Option Testcase)) := do
  if !(← heartbeat hostname now) then commit none []
  else
    let j ← loadJudging judgingId
    if !j.isClaimedBy hostname then commit none []
    else
      let submission ← loadSubmission j.submissionId
      let problem ← ask (.findProblem submission.problemId)
      if !problem.any Problem.allowJudge then commit none []
      else
        let testcases ← ask (.listTestcases submission.problemId)
        let runs ← ask (.listRuns judgingId)
        commit (nextTestcase j.fullTest testcases runs) []

/-- The testcase whose content a judgehost asks for. -/
def findContent (hostname : String) (testcaseId : Int) (now : Instant) :
    Transaction (Ending (Option Testcase)) := do
  if ← heartbeat hostname now then
    let testcase ← need (.notFound (.testcase testcaseId)) (← ask (.findTestcase testcaseId))
    commit (some testcase) []
  else commit none []

/-- The content of a testcase. It is read once the request has been
recorded. -/
def fetchTestcase (ctx : Context) (w : World) (hostname : String) (testcaseId : Int)
    (kind : TestcaseKind) : Outcome (Option Bytes) :=
  let found := transact ctx w (findContent hostname testcaseId ctx.now)
  match found.answer with
  | .error e => ⟨.error e, found.world, []⟩
  | .ok none => ⟨.ok none, found.world, []⟩
  | .ok (some testcase) =>
    let key := BlobKey.testcase testcase.problemId testcaseId kind
    match readBlob ctx found.world key with
    | .error e => ⟨.error e, found.world, []⟩
    | .ok none => ⟨.error (.notFound (.testcaseContent key)), found.world, []⟩
    | .ok (some data) => ⟨.ok (some data), found.world, []⟩

/-! ## Compilation -/

/-- The judging after its compilation was reported: it ends if compiling
failed. -/
def compiled (j : Judging) (success : Bool) (output : String) (now : Instant) : Judging :=
  let j := { j with compileOutput := some output }
  if success then j
  else { j with lifecycle := .finalized, verdict := some .compileError, stopTime := some now }

/-- Records how compiling a judging went. A report by a judgehost that does
not hold the judging is ignored. -/
def reportCompilation (hostname : String) (judgingId : Int) (success : Bool) (output : String)
    (now : Instant) : Transaction (Ending (Option Judging)) := do
  if !(← heartbeat hostname now) then commit none []
  else
    let j ← loadJudging judgingId
    if !j.isClaimedBy hostname then commit none []
    else
      let j := compiled j success output now
      ask (.updateJudging j)
      commit (some j) (if j.isFinalized then [.judgingFinished j.id j.submissionId] else [])

/-! ## Administration -/

/-- Queues the first judging of a submission. -/
def enqueue (submissionId : Int) : Transaction (Ending Judging) := do
  let submission ← loadSubmission submissionId
  let active ← ask (.findJudgings { submissionIds := some [submissionId], active := some true })
  unlessError active.isEmpty (.conflict (.alreadyQueued submissionId))
  let j ← ask (.insertJudging ⟨submissionId, true, submission.requiresFullTest, none, none⟩)
  commit j []

/-- All judgehosts. -/
def listJudgehosts : Transaction (Ending (List Judgehost)) := do
  commit (← ask .listJudgehosts) []

/-- Switches a judgehost on or off. -/
def setJudgehostActive (hostname : String) (active : Bool) : Transaction (Ending Unit) := do
  unlessError (← ask (.setJudgehostActive hostname active)) (.notFound (.judgehost hostname))
  commit () []

/-- Switches a problem on or off. -/
def setProblemJudging (problemId : Int) (allow : Bool) : Transaction (Ending Unit) := do
  unlessError (← ask (.setProblemAllowed problemId allow)) (.notFound (.problem problemId))
  commit () []

/-- Switches a language on or off. -/
def setLanguageJudging (languageId : String) (allow : Bool) : Transaction (Ending Unit) := do
  unlessError (← ask (.setLanguageAllowed languageId allow)) (.notFound (.language languageId))
  commit () []

end Dispatch

end JudgeQueue
