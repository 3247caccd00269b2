import JudgeQueue.Http.MediaType
import JudgeQueue.Http.Message
import JudgeQueue.Http.Percent
import JudgeQueue.Wire.Answers
import JudgeQueue.Wire.Bodies
/-!
# Endpoints

An endpoint reads what a request asks for, names the operation that does it,
and says how the answer is sent. The parameters of the path are read first,
then the body, and then what the body says is checked; whatever fails first
refuses the request.
-/

namespace JudgeQueue

namespace Http

/-- How requests of one kind are read, done and answered. -/
structure Endpoint where
  {Input : Type}
  {Answer : Type}
  /-- Reads a request, given the parameters of the path. -/
  read : List String → Request → Except Response Input
  operation : Input → Operation Answer
  respond : Input → Answer → Response

/-! ## Reading requests -/

/-- A request whose path has no parameter. -/
def noParameter {α : Type} (f : Request → Except Response α) :
    List String → Request → Except Response α
  | [], request => f request
  | _, _ => .error (.refusal 400)

/-- A request whose path has one parameter. -/
def oneParameter {α : Type} (f : String → Request → Except Response α) :
    List String → Request → Except Response α
  | [a], request => f a request
  | _, _ => .error (.refusal 400)

/-- A request whose path has two parameters. -/
def twoParameters {α : Type} (f : String → String → Request → Except Response α) :
    List String → Request → Except Response α
  | [a, b], request => f a b request
  | _, _ => .error (.refusal 400)

/-- A request whose path has three parameters. -/
def threeParameters {α : Type} (f : String → String → String → Request → Except Response α) :
    List String → Request → Except Response α
  | [a, b, c], request => f a b c request
  | _, _ => .error (.refusal 400)

/-- A number in a path. -/
def number (text : String) : Except Response Int :=
  match Numeral.int64? text with
  | some i => .ok i
  | none => .error (.refusal 400)

/-- A name in a path. -/
def named {α : Type} (ofName? : String → Option α) (text : String) : Except Response α :=
  match ofName? text with
  | some a => .ok a
  | none => .error (.refusal 400)

/-- The body of a request, which has to announce JSON. -/
def body {α : Type} (r : Json.Reader α) (request : Request) : Except Response α :=
  if request.contentType.any MediaType.isJson then
    match r.document request.body with
    | .ok a => .ok a
    | .error .malformed => .error (.refusal 400)
    | .error .mismatch => .error (.refusal 422)
  else .error (.refusal 415)

/-- The body of a request that may have none. Only a request without a
content type has none. -/
def bodyIfAny {α : Type} (r : Json.Reader α) (request : Request) : Except Response (Option α) :=
  if request.contentType.isNone then .ok none else (body r request).map some

/-- Reports an error of the service. -/
def orReport {α : Type} : Except Error α → Except Response α
  | .ok a => .ok a
  | .error e => .error (.ofError e)

/-- The status in a query, which may be given once. Other names are passed
over. -/
def statusQuery (query : String) : Except Response (Option ErrorStatus) :=
  match (Percent.formPairs query).filter fun p => p.1 = "status" with
  | [] => .ok none
  | [(_, name)] => (named ErrorStatus.ofName? name).map some
  | _ => .error (.refusal 400)

/-- A decision about a rejudging, with who makes it. -/
def decision : List String → Request → Except Response (Int × Option Int) :=
  oneParameter fun id request => do
    let rejudgingId ← number id
    let operator ← bodyIfAny Body.operator.read request
    .ok (rejudgingId, operator.join)

/-- A path whose only parameter is a number. -/
def onlyNumber : List String → Request → Except Response Int :=
  oneParameter fun id _ => number id

/-! ## Answering requests -/

/-- Sends the answer as JSON. -/
def json {α β : Type} [ToJson β] (status : Nat) (_ : α) (answer : β) : Response :=
  ⟨status, .json (toJson answer).written⟩

/-- Sends that the operation is done. -/
def done {α : Type} (_ : α) (_ : Unit) : Response :=
  ⟨204, .empty⟩

namespace Endpoint

/-! ## Judgehosts -/

/-- Registers a judgehost. -/
def register : Endpoint where
  read := noParameter fun request => do
    let hostname ← body Body.hostname.read request
    orReport (Body.checkHostname hostname)
    .ok hostname
  operation := .register
  respond := json 200

/-- Hands out a judging. -/
def nextJudging : Endpoint where
  read := oneParameter fun hostname _ => .ok hostname
  operation := .claimJudging
  respond := json 200

/-- Hands out a testcase of a judging. -/
def nextTestcase : Endpoint where
  read := twoParameters fun hostname id _ => do .ok (hostname, ← number id)
  operation := fun (hostname, judgingId) => .claimTestcase hostname judgingId
  respond := json 200

/-- Takes a report on compiling. -/
def compilation : Endpoint where
  read := twoParameters fun hostname id request => do
    let judgingId ← number id
    let report ← body CompilationBody.form.read request
    let output ← orReport report.outputText
    .ok (hostname, judgingId, report.success, output)
  operation := fun (hostname, judgingId, success, output) =>
    .reportCompilation hostname judgingId success output
  respond := json 200

/-- Takes a batch of runs. -/
def runs : Endpoint where
  read := twoParameters fun hostname id request => do
    let judgingId ← number id
    let runs ← body RunBody.batch.read request
    orReport (RunBody.checkBatch runs)
    let reports ← orReport (runs.mapM RunBody.toReport)
    .ok (hostname, judgingId, reports)
  operation := fun (hostname, judgingId, reports) => .reportRuns hostname judgingId reports
  respond := json 200

/-- Takes the report of an internal error. -/
def reportError : Endpoint where
  read := oneParameter fun _ request => do
    let incident ← body IncidentBody.form.read request
    orReport incident.check
    orReport incident.toReport
  operation := .reportError
  respond := json 201

/-- The content of a testcase as it is sent. -/
def contentOfTestcase (testcaseId : Int) (kind : TestcaseKind) (data : Bytes) : Json :=
  .object [
    ("testcase_id", toJson testcaseId),
    ("kind", toJson kind),
    ("content", .text (Base64.encode data))]

/-- Sends the content of a testcase. -/
def testcaseContent : Endpoint where
  read := threeParameters fun hostname id name _ => do
    .ok (hostname, ← number id, ← named TestcaseKind.ofName? name)
  operation := fun (hostname, testcaseId, kind) => .fetchTestcase hostname testcaseId kind
  respond := fun (_, testcaseId, kind) data =>
    ⟨200, .json (.ofOption (contentOfTestcase testcaseId kind) data)⟩

/-! ## Submissions and rejudgings -/

/-- Queues the first judging of a submission. -/
def enqueue : Endpoint where
  read := onlyNumber
  operation := .enqueue
  respond := json 202

/-- Judges a submission anew. -/
def rejudge : Endpoint where
  read := onlyNumber
  operation := .rejudgeSubmission
  respond := json 202

/-- Opens a rejudging. -/
def createRejudging : Endpoint where
  read := noParameter fun request => do
    let new ← body NewRejudging.form.read request
    orReport new.check
    .ok new
  operation := .createRejudging
  respond := json 201

/-- Rejudges a selection. -/
def batchRejudge : Endpoint where
  read := noParameter (body BatchBody.reader)
  operation := fun batch => .batchRejudge batch.selection batch.rejudgingId batch.fullTest
  respond := json 202

/-- Sends a rejudging. -/
def getRejudging : Endpoint where
  read := onlyNumber
  operation := .getRejudging
  respond := json 200

/-- Applies a rejudging. -/
def applyRejudging : Endpoint where
  read := decision
  operation := fun (rejudgingId, operator) => .applyRejudging rejudgingId operator
  respond := json 200

/-- Cancels a rejudging. -/
def cancelRejudging : Endpoint where
  read := decision
  operation := fun (rejudgingId, operator) => .cancelRejudging rejudgingId operator
  respond := json 200

/-! ## Internal errors -/

/-- Lists internal errors. -/
def listErrors : Endpoint where
  read := noParameter fun request => statusQuery request.target.query
  operation := .listErrors
  respond := json 200

/-- Closes an internal error. -/
def resolveError : Endpoint where
  read := oneParameter fun id request => do
    let errorId ← number id
    let status ← body ErrorStatus.form.read request
    .ok (errorId, status)
  operation := fun (errorId, status) => .resolveError errorId status
  respond := json 200

/-! ## Administration -/

/-- Lists judgehosts. -/
def listJudgehosts : Endpoint where
  read := noParameter fun _ => .ok ()
  operation := fun _ => .listJudgehosts
  respond := json 200

/-- Switches a judgehost. -/
def setJudgehost : Endpoint where
  read := oneParameter fun hostname request => do
    .ok (hostname, ← body Body.active.read request)
  operation := fun (hostname, active) => .setJudgehostActive hostname active
  respond := done

/-- Switches a problem. -/
def setProblem : Endpoint where
  read := oneParameter fun id request => do
    let problemId ← number id
    .ok (problemId, ← body Body.allow.read request)
  operation := fun (problemId, allow) => .setProblemJudging problemId allow
  respond := done

/-- Switches a language. -/
def setLanguage : Endpoint where
  read := oneParameter fun languageId request => do
    .ok (languageId, ← body Body.allow.read request)
  operation := fun (languageId, allow) => .setLanguageJudging languageId allow
  respond := done

/-- Returns a judging to the queue. -/
def returnToQueue : Endpoint where
  read := onlyNumber
  operation := .returnToQueue
  respond := json 200

/-- An output stream as it is sent. -/
def contentOfRun (judgingId runId : Int) (kind : RunOutputKind) (data : Bytes) : Json :=
  .object [
    ("judging_id", toJson judgingId),
    ("run_id", toJson runId),
    ("kind", toJson kind),
    ("content", .text (Base64.encode data))]

/-- Sends an output stream of a run. -/
def runOutput : Endpoint where
  read := threeParameters fun judging run name _ => do
    .ok (← number judging, ← number run, ← named RunOutputKind.ofName? name)
  operation := fun (judgingId, runId, kind) => .runOutput judgingId runId kind
  respond := fun (judgingId, runId, kind) data =>
    match data with
    | some data => ⟨200, .json (contentOfRun judgingId runId kind data)⟩
    | none => .ofError (.notFound (.runOutput kind runId judgingId))

/-- Sends the statistics of a contest. -/
def statistics : Endpoint where
  read := onlyNumber
  operation := .getStatistics
  respond := json 200

/-- Computes the statistics of a contest anew. -/
def rebuildStatistics : Endpoint where
  read := onlyNumber
  operation := .rebuildStatistics
  respond := json 200

/-- Removes a testcase. -/
def deleteTestcase : Endpoint where
  read := onlyNumber
  operation := .deleteTestcase
  respond := json 200

end Endpoint

end Http

end JudgeQueue
