import JudgeQueue.Blob
import JudgeQueue.InternalError
import JudgeQueue.Rejudging
import JudgeQueue.Verdict
/-!
# Errors

Why a request fails. A cause names the things it is about, its wording is
given once, and its kind decides the code and the status with which a
client is answered.
-/

namespace JudgeQueue

/-- What was asked for and does not exist. -/
inductive Missing
  | judgehost (hostname : String)
  | problem (id : Int)
  | language (id : String)
  | testcase (id : Int)
  | testcaseContent (blob : BlobKey)
  | submission (id : Int)
  | judging (id : Int)
  | runOutput (kind : RunOutputKind) (runId judgingId : Int)
  | rejudging (id : Int)
  | internalError (id : Int)
  | described (what : String)

/-- Names the missing thing. -/
def Missing.describe : Missing → String
  | judgehost hostname => s!"Judgehost '{hostname}'"
  | problem id => s!"Problem {id}"
  | language id => s!"Language '{id}'"
  | testcase id => s!"Testcase {id}"
  | testcaseContent blob => "Testcase content " ++ blob.path
  | submission id => s!"Submission {id}"
  | judging id => s!"Judging {id}"
  | runOutput kind runId judgingId => kind.name ++ s!" output of run {runId} in judging {judgingId}"
  | rejudging id => s!"Rejudging {id}"
  | internalError id => s!"Internal error {id}"
  | described what => what

/-- Why the state of things does not admit a change. -/
inductive Conflict
  /-- A judgehost of this name is registered. -/
  | judgehostExists (hostname : String)
  /-- A judging needs a submission. -/
  | noSubmission (id : Int)
  /-- The submission has an active judging. -/
  | alreadyQueued (submissionId : Int)
  /-- The submission has a candidate in an open rejudging. -/
  | inRejudging (submissionId rejudgingId : Int)
  /-- The stored rejudging has been decided. -/
  | decided (rejudgingId : Int)
  /-- The rejudging has been decided in this way. -/
  | alreadyDecided (rejudgingId : Int) (state : RejudgingState)
  /-- Candidates of the rejudging have not ended. -/
  | unfinished (rejudgingId : Int) (count : Nat)
  /-- The stored internal error has been closed. -/
  | closed (internalErrorId : Int)
  /-- The internal error has been closed in this way. -/
  | alreadyClosed (internalErrorId : Int) (status : ErrorStatus)
  | described (what : String)

/-- States the conflict. -/
def Conflict.describe : Conflict → String
  | judgehostExists hostname => s!"Judgehost '{hostname}' already exists"
  | noSubmission id => s!"Submission {id} does not exist"
  | alreadyQueued id => s!"Submission {id} already has an active judging"
  | inRejudging id rejudgingId => s!"Submission {id} is part of rejudging {rejudgingId}"
  | decided id => s!"Rejudging {id} is already decided"
  | alreadyDecided id state => s!"Rejudging {id} is already " ++ state.label
  | unfinished id count => s!"Rejudging {id} still has {count} unfinished judgings"
  | closed id => s!"Internal error {id} is no longer open"
  | alreadyClosed id status => s!"Internal error {id} is already " ++ status.name
  | described what => what

/-- Why an input makes no sense. -/
inductive InvalidInput
  /-- Runs do not end with this verdict. -/
  | notRunVerdict (verdict : Verdict)
  /-- A run names a testcase of another problem. -/
  | foreignTestcase (testcaseId problemId : Int)
  /-- A selection is of another contest than its rejudging. -/
  | foreignRejudging (rejudgingId contestId : Int)
  /-- An internal error is closed, never opened again. -/
  | notClosing
  /-- A field does not hold base64. -/
  | notBase64 (field : String)
  | described (what : String)

/-- States what is wrong with the input. -/
def InvalidInput.describe : InvalidInput → String
  | notRunVerdict verdict => "'" ++ verdict.name ++ "' is not a testcase verdict"
  | foreignTestcase id problemId => s!"Testcase {id} does not belong to problem {problemId}"
  | foreignRejudging id contestId => s!"Rejudging {id} belongs to contest {contestId}"
  | notClosing => "An internal error can only be resolved or ignored"
  | notBase64 field => s!"{field} is not valid base64"
  | described what => what

/-- Why a request fails. The last five causes lie in the service's
surroundings, which describe them in their own words. -/
inductive Error
  | validation (failures : List String)
  | invalidInput (cause : InvalidInput)
  | notFound (what : Missing)
  | conflict (cause : Conflict)
  | database (text : String)
  | redis (text : String)
  | storage (text : String)
  | configuration (text : String)
  | internal (text : String)

namespace Error

/-- The code by which clients tell errors apart. -/
def code : Error → String
  | validation _ => "VALIDATION_ERROR"
  | invalidInput _ => "INVALID_INPUT"
  | notFound _ => "NOT_FOUND"
  | conflict _ => "CONFLICT"
  | database _ => "DATABASE_ERROR"
  | redis _ => "REDIS_ERROR"
  | storage _ => "STORAGE_ERROR"
  | configuration _ => "CONFIGURATION_ERROR"
  | internal _ => "INTERNAL_ERROR"

/-- The full wording. Nothing is said about the inside of the service. -/
def message : Error → String
  | validation failures => "Validation error: " ++ ", ".intercalate failures
  | invalidInput cause => "Invalid input: " ++ cause.describe
  | notFound what => "Not found: " ++ what.describe
  | conflict cause => "Conflict: " ++ cause.describe
  | database text => "Database error: " ++ text
  | redis text => "Redis error: " ++ text
  | storage text => "Storage error: " ++ text
  | configuration text => "Configuration error: " ++ text
  | internal _ => "Internal server error"

/-- The HTTP status of an answer that reports the error. -/
def status : Error → Nat
  | validation _ | invalidInput _ => 400
  | notFound _ => 404
  | conflict _ => 409
  | database _ | redis _ | storage _ | configuration _ | internal _ => 500

/-- The wording that clients see: what the surroundings said is kept from
them where it may reveal how the service is built. -/
def publicMessage : Error → String
  | internal _ => "An internal error occurred"
  | database _ => "A database error occurred"
  | storage _ => "A storage error occurred"
  | e => e.message

/-- What a database says about a failed statement. -/
inductive DatabaseFailure
  | rowNotFound
  | uniqueViolation
  | foreignKeyViolation
  | other (text : String)

/-- The error that a failed statement amounts to. -/
def ofDatabase : DatabaseFailure → Error
  | .rowNotFound => notFound (.described "Resource not found")
  | .uniqueViolation => conflict (.described "Resource already exists")
  | .foreignKeyViolation => conflict (.described "Resource is still referenced")
  | .other text => database text

end Error

end JudgeQueue
