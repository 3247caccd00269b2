import JudgeQueue.Event
import JudgeQueue.Wire.Names
/-!
# Events on the wire

An event travels as a record whose `type` says which one it is, and a
notification under an identifier of its own.
-/

namespace JudgeQueue

open Json (Form Reader)

instance : ToJson Event where
  toJson
    | .judgingBegun judgingId submissionId hostname => .object [
        ("type", .text "judging_begun"),
        ("judging_id", toJson judgingId),
        ("submission_id", toJson submissionId),
        ("hostname", toJson hostname)]
    | .judgingFinished judgingId submissionId => .object [
        ("type", .text "judging_finished"),
        ("judging_id", toJson judgingId),
        ("submission_id", toJson submissionId)]
    | .internalErrorRaised internalErrorId judgingId disabled => .object [
        ("type", .text "internal_error_raised"),
        ("internal_error_id", toJson internalErrorId),
        ("judging_id", toJson judgingId),
        ("disabled", toJson disabled)]

/-- The fields that follow a type of event. -/
def Event.variant? : String → Option (Form Event)
  | "judging_begun" =>
    some (.judgingBegun <$> .required "judging_id" .int64
      <*> .required "submission_id" .int64
      <*> .required "hostname" .text)
  | "judging_finished" =>
    some (.judgingFinished <$> .required "judging_id" .int64
      <*> .required "submission_id" .int64)
  | "internal_error_raised" =>
    some (.internalErrorRaised <$> .required "internal_error_id" .int64
      <*> .optional "judging_id" .int64
      <*> .required "disabled" .text)
  | _ => none

/-- Reads an event. -/
def Event.reader : Reader Event := .tagged "type" Event.variant?

instance : ToJson Notification where
  toJson n := .object [("time", toJson n.time), ("event", toJson n.event)]

/-- A notification under the identifier with which it is sent. -/
structure Envelope where
  id : Uuid
  notification : Notification
deriving DecidableEq, Repr

instance : ToJson Envelope where
  toJson e := .object [
    ("id", toJson e.id),
    ("time", toJson e.notification.time),
    ("event", toJson e.notification.event)]

/-- The fields of a notification as it is sent. -/
def Envelope.form : Form Envelope :=
  (fun id time event => ⟨id, time, event⟩) <$> .required "id" Uuid.reader
    <*> .required "time" Instant.reader
    <*> .required "event" Event.reader

end JudgeQueue
