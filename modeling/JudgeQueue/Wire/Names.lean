import JudgeQueue.Blob
import JudgeQueue.InternalError
import JudgeQueue.Judging
import JudgeQueue.Rejudging
import JudgeQueue.Text.Uuid
/-!
# Names on the wire

Values of a few cases travel as their names, instants and identifiers as
their text. A name that a stored row cannot have is reported with the text
that was found.
-/

namespace JudgeQueue

open Json (Reader)

instance : ToJson Verdict := ⟨fun v => .text v.name⟩

instance : ToJson Lifecycle := ⟨fun l => .text l.name⟩

instance : ToJson ErrorStatus := ⟨fun s => .text s.name⟩

instance : ToJson RejudgingState := ⟨fun s => .text s.name⟩

instance : ToJson RunOutputKind := ⟨fun k => .text k.name⟩

instance : ToJson TestcaseKind := ⟨fun k => .text k.name⟩

instance : ToJson Instant := ⟨fun t => .text t.toText⟩

instance : ToJson Uuid := ⟨fun u => .text u.toText⟩

/-- Reads a verdict. -/
def Verdict.reader : Reader Verdict := .oneOf Verdict.ofName?

/-- Reads a lifecycle. -/
def Lifecycle.reader : Reader Lifecycle := .oneOf Lifecycle.ofName?

/-- Reads a status. -/
def ErrorStatus.reader : Reader ErrorStatus := .oneOf ErrorStatus.ofName?

/-- A text that names nothing of its kind. -/
structure UnknownName where
  kind : String
  text : String
deriving DecidableEq, Repr

/-- States what the text should have named. -/
def UnknownName.message (e : UnknownName) : String :=
  "unknown " ++ e.kind ++ " '" ++ e.text ++ "'"

/-- The value of a name, or a complaint. -/
def parseName {α : Type} (kind : String) (ofName? : String → Option α) (text : String) :
    Except UnknownName α :=
  match ofName? text with
  | some a => .ok a
  | none => .error ⟨kind, text⟩

/-- The verdict of a name, or a complaint. -/
def Verdict.parse : String → Except UnknownName Verdict :=
  parseName "verdict" Verdict.ofName?

/-- The lifecycle of a name, or a complaint. -/
def Lifecycle.parse : String → Except UnknownName Lifecycle :=
  parseName "judging lifecycle" Lifecycle.ofName?

/-- The status of a name, or a complaint. -/
def ErrorStatus.parse : String → Except UnknownName ErrorStatus :=
  parseName "internal error status" ErrorStatus.ofName?

/-- Reads an instant. -/
def Instant.reader : Reader Instant := .parsed Instant.ofText?

/-- Reads an identifier. -/
def Uuid.reader : Reader Uuid := .parsed Uuid.ofText?

end JudgeQueue
