import JudgeQueue.AccessLog
import JudgeQueue.Blob
import JudgeQueue.Blobs
import JudgeQueue.Catalog
import JudgeQueue.Config
import JudgeQueue.Curation
import JudgeQueue.Dispatch
import JudgeQueue.Error
import JudgeQueue.Event
import JudgeQueue.Grading
import JudgeQueue.Http.Endpoint
import JudgeQueue.Http.MediaType
import JudgeQueue.Http.Message
import JudgeQueue.Http.Percent
import JudgeQueue.Http.Route
import JudgeQueue.Http.Target
import JudgeQueue.Incident
import JudgeQueue.InternalError
import JudgeQueue.Json.Draft
import JudgeQueue.Json.Freeform
import JudgeQueue.Json.Lexeme
import JudgeQueue.Json.Reader
import JudgeQueue.Json.Value
import JudgeQueue.Judgehost
import JudgeQueue.Judging
import JudgeQueue.Lookup
import JudgeQueue.Operation
import JudgeQueue.Recovery
import JudgeQueue.Rejudge
import JudgeQueue.Rejudging
import JudgeQueue.Run
import JudgeQueue.Staging
import JudgeQueue.Standings
import JudgeQueue.Statistics
import JudgeQueue.Store.Basic
import JudgeQueue.Store.Filter
import JudgeQueue.Store.OpenTransaction
import JudgeQueue.Store.Query
import JudgeQueue.Submission
import JudgeQueue.Subscriber
import JudgeQueue.Table
import JudgeQueue.Text.Base64
import JudgeQueue.Text.Bytes
import JudgeQueue.Text.Decimal
import JudgeQueue.Text.Digest
import JudgeQueue.Text.Numeral
import JudgeQueue.Text.Split
import JudgeQueue.Text.Utf8
import JudgeQueue.Text.Uuid
import JudgeQueue.Time.Calendar
import JudgeQueue.Time.Instant
import JudgeQueue.Transaction
import JudgeQueue.Verdict
import JudgeQueue.Wire.Answers
import JudgeQueue.Wire.Bodies
import JudgeQueue.Wire.Events
import JudgeQueue.Wire.Names
import JudgeQueue.Wire.Rows
import JudgeQueue.Proofs.Calls.Apart
import JudgeQueue.Proofs.Calls.Beside
import JudgeQueue.Proofs.Calls.Commute
import JudgeQueue.Proofs.Calls.Desk
import JudgeQueue.Proofs.Calls.Heartbeat
import JudgeQueue.Proofs.Calls.Refusal
import JudgeQueue.Proofs.Calls.Refused
import JudgeQueue.Proofs.Calls.Reports
import JudgeQueue.Proofs.Calls.Ruling
import JudgeQueue.Proofs.Change.Basic
import JudgeQueue.Proofs.Change.Elsewhere
import JudgeQueue.Proofs.Change.View
import JudgeQueue.Proofs.Course.Change
import JudgeQueue.Proofs.Course.Clock
import JudgeQueue.Proofs.Course.Decisions
import JudgeQueue.Proofs.Course.Links
import JudgeQueue.Proofs.Course.Row
import JudgeQueue.Proofs.Course.Table
import JudgeQueue.Proofs.Course.Turns
import JudgeQueue.Proofs.Dispatch.Claim
import JudgeQueue.Proofs.Dispatch.Jobs
import JudgeQueue.Proofs.Dispatch.Pass
import JudgeQueue.Proofs.Files.Path
import JudgeQueue.Proofs.Files.Refinement
import JudgeQueue.Proofs.Files.Staging
import JudgeQueue.Proofs.Graded.Basic
import JudgeQueue.Proofs.Graded.Keeps
import JudgeQueue.Proofs.Graded.Moves
import JudgeQueue.Proofs.Graded.Progress
import JudgeQueue.Proofs.Grading.Batch
import JudgeQueue.Proofs.Grading.Complete
import JudgeQueue.Proofs.Grading.Next
import JudgeQueue.Proofs.Grading.Parts
import JudgeQueue.Proofs.Grading.Reduction
import JudgeQueue.Proofs.Grading.Run
import JudgeQueue.Proofs.Grading.Summary
import JudgeQueue.Proofs.Ledger.Apply
import JudgeQueue.Proofs.Ledger.Balance
import JudgeQueue.Proofs.Ledger.Canonical
import JudgeQueue.Proofs.Ledger.Counters
import JudgeQueue.Proofs.Ledger.Merge
import JudgeQueue.Proofs.Ledger.Owners
import JudgeQueue.Proofs.Ledger.Rebuild
import JudgeQueue.Proofs.Ledger.Recount
import JudgeQueue.Proofs.Ledger.Retract
import JudgeQueue.Proofs.Ledger.Scores
import JudgeQueue.Proofs.Ledger.Tally
import JudgeQueue.Proofs.Output.Archive
import JudgeQueue.Proofs.Output.Batch
import JudgeQueue.Proofs.Output.Report
import JudgeQueue.Proofs.Reachable.Applied
import JudgeQueue.Proofs.Reachable.Authority
import JudgeQueue.Proofs.Reachable.Basic
import JudgeQueue.Proofs.Reachable.Batch
import JudgeQueue.Proofs.Reachable.Calls
import JudgeQueue.Proofs.Reachable.Cancelled
import JudgeQueue.Proofs.Reachable.Claim
import JudgeQueue.Proofs.Reachable.Commute
import JudgeQueue.Proofs.Reachable.Course
import JudgeQueue.Proofs.Reachable.Decisions
import JudgeQueue.Proofs.Reachable.Delivery
import JudgeQueue.Proofs.Reachable.Drift
import JudgeQueue.Proofs.Reachable.Failure
import JudgeQueue.Proofs.Reachable.Handout
import JudgeQueue.Proofs.Reachable.Heartbeat
import JudgeQueue.Proofs.Reachable.Isolation
import JudgeQueue.Proofs.Reachable.Journal
import JudgeQueue.Proofs.Reachable.Ledger
import JudgeQueue.Proofs.Reachable.Membership
import JudgeQueue.Proofs.Reachable.Output
import JudgeQueue.Proofs.Reachable.Parts
import JudgeQueue.Proofs.Reachable.Proposal
import JudgeQueue.Proofs.Reachable.Recovery
import JudgeQueue.Proofs.Reachable.Reenabled
import JudgeQueue.Proofs.Reachable.Report
import JudgeQueue.Proofs.Reachable.Runs
import JudgeQueue.Proofs.Reachable.Shape
import JudgeQueue.Proofs.Reachable.Verdicts
import JudgeQueue.Proofs.Reachable.Worker
import JudgeQueue.Proofs.Recovery.Cancel
import JudgeQueue.Proofs.Recovery.Requeue
import JudgeQueue.Proofs.Recovery.Switch
import JudgeQueue.Proofs.Sound.Advance
import JudgeQueue.Proofs.Sound.Basic
import JudgeQueue.Proofs.Sound.Decide
import JudgeQueue.Proofs.Sound.Keeps
import JudgeQueue.Proofs.Sound.Moves
import JudgeQueue.Proofs.Sound.Queue
import JudgeQueue.Proofs.Sound.Rejudging
import JudgeQueue.Proofs.Table.Grows
import JudgeQueue.Proofs.Table.Lookup
import JudgeQueue.Proofs.Table.Total
import JudgeQueue.Proofs.Trace.Basic
import JudgeQueue.Proofs.Trace.Dispatch
import JudgeQueue.Proofs.Trace.Effects
import JudgeQueue.Proofs.Trace.Grading
import JudgeQueue.Proofs.Trace.Perform
import JudgeQueue.Proofs.Trace.Recovery
import JudgeQueue.Proofs.Trace.Rejudge
import JudgeQueue.Proofs.Trace.Rejudging
import JudgeQueue.Proofs.Trace.Standings
import JudgeQueue.Proofs.Transaction.Apart
import JudgeQueue.Proofs.Transaction.Beside
import JudgeQueue.Proofs.Transaction.Effects
import JudgeQueue.Proofs.Transaction.Ensures
import JudgeQueue.Proofs.Transaction.Leaves
import JudgeQueue.Proofs.Transaction.Run
