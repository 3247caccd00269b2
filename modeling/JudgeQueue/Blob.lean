import JudgeQueue.Text.Bytes
/-!
# Blob keys

Testcase data and run output are kept as blobs. A key says what a blob
belongs to, and its path is where a directory tree keeps it.
-/

namespace JudgeQueue

/-- An output stream of a run. -/
inductive RunOutputKind
  | run
  | diff
  | error
  | system
  | metadata
deriving DecidableEq, Repr

namespace RunOutputKind

/-- All streams, in the order in which they are listed. -/
def all : List RunOutputKind :=
  [run, diff, error, system, metadata]

/-- The name of a stream. -/
def name : RunOutputKind → String
  | run => "run"
  | diff => "diff"
  | error => "error"
  | system => "system"
  | metadata => "metadata"

/-- The stream of a name. -/
def ofName? : String → Option RunOutputKind
  | "run" => some run
  | "diff" => some diff
  | "error" => some error
  | "system" => some system
  | "metadata" => some metadata
  | _ => none

end RunOutputKind

/-- A half of a testcase. -/
inductive TestcaseKind
  | input
  | output
deriving DecidableEq, Repr

namespace TestcaseKind

/-- The name of a half. -/
def name : TestcaseKind → String
  | input => "input"
  | output => "output"

/-- The half of a name. -/
def ofName? : String → Option TestcaseKind
  | "input" => some input
  | "output" => some output
  | _ => none

end TestcaseKind

/-- What a blob belongs to. -/
inductive BlobKey
  | runOutput (judgingId runId : Int) (kind : RunOutputKind)
  | testcase (problemId testcaseId : Int) (kind : TestcaseKind)
deriving DecidableEq, Repr

/-- A path below the root of a directory tree, as its segments. -/
abbrev Path := List String

namespace BlobKey

/-- The segments of a key's path. -/
def segments : BlobKey → Path
  | runOutput judgingId runId kind => ["runs", toString judgingId, toString runId, kind.name]
  | testcase problemId testcaseId kind =>
    ["testcases", toString problemId, toString testcaseId, kind.name]

/-- The path of a key, its segments separated by slashes. -/
def path (k : BlobKey) : String :=
  "/".intercalate k.segments

end BlobKey

end JudgeQueue
