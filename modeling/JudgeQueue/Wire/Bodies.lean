import JudgeQueue.Error
import JudgeQueue.Grading
import JudgeQueue.Incident
import JudgeQueue.Text.Base64
import JudgeQueue.Text.Utf8
import JudgeQueue.Wire.Rows
/-!
# Request bodies

What clients send, and how it is checked. Lengths and ranges are checked
first, all at once; then the fields that carry bytes are decoded, and the
first one that is not base64 refuses the request.
-/

namespace JudgeQueue

open Json (Form Reader)

namespace Body

/-! ## Checks -/

/-- Complains of a length outside of some bounds. -/
def checkLength (path : String) (low high length : Nat) : List String :=
  if low ≤ length && length ≤ high then [] else [path ++ ":length"]

/-- Complains of a number that is out of range. -/
def checkRange (path : String) (inRange : Bool) : List String :=
  if inRange then [] else [path ++ ":range"]

/-- Refuses a body with complaints, which are listed in order. -/
def accept (failures : List String) : Except Error Unit :=
  if failures.isEmpty then .ok () else .error (.validation (failures.mergeSort fun a b => a ≤ b))

/-- The bytes of a field in base64. -/
def decode (field text : String) : Except Error Bytes :=
  match Base64.decode? text with
  | some bytes => .ok bytes
  | none => .error (.invalidInput (.notBase64 field))

/-! ## Registration -/

/-- The fields of a registration: the hostname. -/
def hostname : Form String := .required "hostname" .text

/-- A hostname has 1 to 64 characters. -/
def checkHostname (hostname : String) : Except Error Unit :=
  accept (checkLength "hostname" 1 64 hostname.length)

end Body

/-! ## Compilation -/

/-- How compiling went, with the compiler's output in base64. -/
structure CompilationBody where
  success : Bool
  output : String
deriving DecidableEq, Repr

namespace CompilationBody

/-- The fields of the body. -/
def form : Form CompilationBody :=
  CompilationBody.mk <$> .required "success" .bool <*> .defaulted "output_compile" .text ""

/-- The compiler's output; bytes that are no text are replaced. -/
def outputText (b : CompilationBody) : Except Error String :=
  (Body.decode "output_compile" b.output).map Utf8.decodeLossy

end CompilationBody

/-! ## Runs -/

/-- A run, with its output streams in base64. -/
structure RunBody where
  testcaseId : Int
  verdict : Verdict
  runtime : Float
  memory : Int
  run : Option String
  diff : Option String
  error : Option String
  system : Option String
  metadata : Option String
deriving DecidableEq, Repr

namespace RunBody

/-- The fields of a run. -/
def form : Form RunBody :=
  RunBody.mk <$> .required "testcase_id" .int64
    <*> .required "verdict" Verdict.reader
    <*> .required "runtime" .float
    <*> .required "memory" .int64
    <*> .optional "output_run" .text
    <*> .optional "output_diff" .text
    <*> .optional "output_error" .text
    <*> .optional "output_system" .text
    <*> .optional "metadata" .text

/-- Time and memory are not negative. -/
def failures (path : String) (r : RunBody) : List String :=
  Body.checkRange (path ++ ".runtime") (0.0 ≤ r.runtime) ++
    Body.checkRange (path ++ ".memory") (0 ≤ r.memory)

/-- A stream in base64. -/
def stream (r : RunBody) : RunOutputKind → Option String
  | .run => r.run
  | .diff => r.diff
  | .error => r.error
  | .system => r.system
  | .metadata => r.metadata

/-- The streams that are there, in the order in which they are listed. -/
def streams (r : RunBody) : List (RunOutputKind × String) :=
  RunOutputKind.all.filterMap fun kind => (r.stream kind).map fun text => (kind, text)

/-- The run with its streams decoded. -/
def toReport (r : RunBody) : Except Error RunReport := do
  let outputs ← r.streams.mapM fun (kind, text) =>
    (Body.decode kind.name text).map fun data => (kind, data)
  .ok ⟨r.testcaseId, r.verdict, r.runtime, r.memory, outputs⟩

/-- The fields of a batch of runs. -/
def batch : Form (List RunBody) := .required "runs" (.list form.read)

/-- A batch has a run, and all its runs are in range. -/
def checkBatch (runs : List RunBody) : Except Error Unit :=
  Body.accept
    ((if runs.isEmpty then ["runs:length"] else []) ++
      (runs.zipIdx.flatMap fun (r, i) => failures s!"runs[{i}]" r))

end RunBody

/-! ## Internal errors -/

/-- A failure, with an excerpt of the judgehost's log in base64. -/
structure IncidentBody where
  description : String
  judgehostLog : String
  disabled : Json
  judgingId : Option Int
  contestId : Option Int

namespace IncidentBody

/-- The fields of the body. -/
def form : Form IncidentBody :=
  IncidentBody.mk <$> .required "description" .text
    <*> .defaulted "judgehost_log" .text ""
    <*> .required "disabled" .any
    <*> .optional "judging_id" .int64
    <*> .optional "contest_id" .int64

/-- A description has 1 to 1024 characters. -/
def check (b : IncidentBody) : Except Error Unit :=
  Body.accept (Body.checkLength "description" 1 1024 b.description.length)

/-- The report with its log decoded; bytes that are no text are replaced. -/
def toReport (b : IncidentBody) : Except Error IncidentReport := do
  let log ← Body.decode "judgehost_log" b.judgehostLog
  .ok ⟨b.description, Utf8.decodeLossy log, b.disabled, b.judgingId, b.contestId⟩

end IncidentBody

/-- The fields of a decision about an internal error: its new status. -/
def ErrorStatus.form : Form ErrorStatus := .required "status" ErrorStatus.reader

/-! ## Rejudgings -/

/-- The fields of a rejudging to open. -/
def NewRejudging.form : Form NewRejudging :=
  NewRejudging.mk <$> .required "contest_id" .int64
    <*> .required "reason" .text
    <*> .optional "issued_by" .int64

/-- A reason has 1 to 255 characters. -/
def NewRejudging.check (n : NewRejudging) : Except Error Unit :=
  Body.accept (Body.checkLength "reason" 1 255 n.reason.length)

instance : ToJson Selection where
  toJson s := .object [
    ("contest_id", toJson s.contestId),
    ("submission_ids", toJson s.submissionIds),
    ("team_ids", toJson s.teamIds),
    ("problem_ids", toJson s.problemIds),
    ("language_ids", toJson s.languageIds),
    ("verdicts", toJson s.verdicts),
    ("judgehosts", toJson s.judgehosts)]

/-- The fields of a selection, given how verdicts are read. -/
def Selection.formWith (verdict : Reader Verdict) : Form Selection :=
  let criterion {α : Type} (name : String) (r : Reader α) : Form (Option (List α)) :=
    .defaulted name (.option (.list r)) none
  Selection.mk <$> .required "contest_id" .int64
    <*> criterion "submission_ids" .int64
    <*> criterion "team_ids" .int64
    <*> criterion "problem_ids" .int64
    <*> criterion "language_ids" .text
    <*> criterion "verdicts" verdict
    <*> criterion "judgehosts" .text

/-- The fields of a selection. -/
def Selection.form : Form Selection := formWith Verdict.reader

/-- A selection to rejudge, as candidates of a rejudging or at once. -/
structure BatchBody where
  rejudgingId : Option Int
  fullTest : Bool
  selection : Selection
deriving DecidableEq, Repr

/-- Reads a batch. The fields of the selection stand among those of the
batch. -/
def BatchBody.reader : Reader BatchBody := fun d => do
  let own : Form (Option Int × Bool) :=
    Prod.mk <$> .optional "rejudging_id" .int64 <*> .defaulted "full_test" .bool false
  let ((rejudgingId, fullTest), selection) ←
    own.readBeside (Selection.formWith (.oneOfKept Verdict.ofName?)) d
  .ok ⟨rejudgingId, fullTest, selection⟩

namespace Body

/-- The fields of a decision about a rejudging: who makes it. -/
def operator : Form (Option Int) := .optional "operator_id" .int64

/-! ## Switches -/

/-- The fields that switch a judgehost. -/
def active : Form Bool := .required "active" .bool

/-- The fields that switch a problem or a language. -/
def allow : Form Bool := .required "allow" .bool

end Body

end JudgeQueue
