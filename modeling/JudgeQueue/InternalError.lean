import JudgeQueue.Json.Reader
import JudgeQueue.Time.Instant
/-!
# Internal errors

A failure that is not the fault of a submission. Its report names what to
switch off, and closing it as resolved switches that on again.
-/

namespace JudgeQueue

/-- What an internal error switches off. Any other report is kept but
switches nothing off. -/
inductive DisableTarget
  | language (id : String)
  | judgehost (hostname : String)
  | problem (id : Int)
  | unknown
deriving DecidableEq, Repr

namespace DisableTarget

/-- The name of the kind of a target. -/
def kind : DisableTarget → String
  | language _ => "language"
  | judgehost _ => "judgehost"
  | problem _ => "problem"
  | unknown => "unknown"

/-- The form in which a target is stored: its kind, and what names it. -/
def toValue (t : DisableTarget) : Json :=
  .object <| match t with
    | language id => [("kind", .text "language"), ("language_id", .text id)]
    | judgehost hostname => [("kind", .text "judgehost"), ("hostname", .text hostname)]
    | problem id => [("kind", .text "problem"), ("problem_id", .int id)]
    | unknown => [("kind", .text "unknown")]

instance : ToJson DisableTarget := ⟨toValue⟩

/-- Reads a target; a kind that is not known is one too. -/
def reader : Json.Reader DisableTarget :=
  .tagged "kind" fun
    | "language" => some (language <$> .required "language_id" .text)
    | "judgehost" => some (judgehost <$> .required "hostname" .text)
    | "problem" => some (problem <$> .required "problem_id" .int64)
    | _ => some (pure unknown)

/-- The target that a reported value names; one that cannot be read is not
known. -/
def ofValue (v : Json) : DisableTarget :=
  (reader.value? v).getD unknown

end DisableTarget

/-- Whether an internal error is open, or how it was closed. -/
inductive ErrorStatus
  | opened
  | resolved
  | ignored
deriving DecidableEq, Repr

namespace ErrorStatus

/-- The name by which a status is stored and sent. -/
def name : ErrorStatus → String
  | opened => "open"
  | resolved => "resolved"
  | ignored => "ignored"

/-- The status of a name. -/
def ofName? : String → Option ErrorStatus
  | "open" => some opened
  | "resolved" => some resolved
  | "ignored" => some ignored
  | _ => none

end ErrorStatus

/-- A recorded failure. -/
structure InternalError where
  id : Int
  contestId : Option Int
  judgingId : Option Int
  description : String
  judgehostLog : String
  time : Instant
  /-- What to switch off, exactly as it was reported. -/
  disabled : Json
  status : ErrorStatus

/-- The target that the error names. -/
def InternalError.target (e : InternalError) : DisableTarget :=
  .ofValue e.disabled

/-- A failure that has not been recorded. -/
structure NewInternalError where
  contestId : Option Int
  judgingId : Option Int
  description : String
  judgehostLog : String
  time : Instant
  disabled : Json

/-- The open error of an id. -/
def NewInternalError.opened (n : NewInternalError) (id : Int) : InternalError :=
  ⟨id, n.contestId, n.judgingId, n.description, n.judgehostLog, n.time, n.disabled, .opened⟩

end JudgeQueue
