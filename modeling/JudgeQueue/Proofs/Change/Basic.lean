import JudgeQueue.Proofs.Ledger.Tally
import JudgeQueue.Operation
/-!
# Changes of the store

What requests can do to the store, one constructor of `Change` a kind, each
with all that the service has checked when it does so and with the events it
publishes. A request leaves a `Trace` of changes. Whatever holds of the
store through every change holds through every request, so an invariant is
proved once a change and never against the text of a request.

A change that touches several tables is one change: between its parts the
store need not be in order, and no request ends there.
-/

namespace JudgeQueue

open StatisticsDelta

/-! ## What becomes of single rows -/

namespace Judging

/-- A judging that its judgehost has not kept. -/
def unclaimed (j : Judging) : Judging :=
  { j with server := none, startTime := none }

/-- A judging out of force and out of the statistics. -/
def retired (j : Judging) : Judging :=
  { j with active := false, counted := false }

/-- A judging of a submission that a rejudging decides: the candidate speaks
for the submission and counts, the others do not. -/
def settled (rejudgingId : Int) (j : Judging) : Judging :=
  { j with
    active := j.rejudgingId = some rejudgingId
    counted := j.rejudgingId = some rejudgingId }

/-- A judging that is flagged if it is active and has ended. -/
def flagged (j : Judging) : Judging :=
  { j with counted := j.counted || j.active && j.isFinalized }

/-- A judging that keeps its flag only while it is active. -/
def reflagged (j : Judging) : Judging :=
  { j with counted := j.active && (j.isFinalized || j.counted) }

theorem key_claimedBy (j : Judging) (hostname : String) (now : Instant) :
    key (j.claimedBy hostname now) = key j := rfl

theorem key_unclaimed (j : Judging) : key j.unclaimed = key j := rfl

theorem key_retired (j : Judging) : key j.retired = key j := rfl

theorem key_settled (id : Int) (j : Judging) : key (j.settled id) = key j := rfl

theorem key_flagged (j : Judging) : key j.flagged = key j := rfl

theorem key_reflagged (j : Judging) : key j.reflagged = key j := rfl

end Judging

namespace Submission

/-- A submission that has moved into a rejudging or out of any. -/
def moved (rejudgingId : Option Int) (r : Submission) : Submission :=
  { r with rejudgingId }

theorem key_moved (rejudgingId : Option Int) (r : Submission) : key (r.moved rejudgingId) = key r :=
  rfl

end Submission

theorem JudgingPatch.key_apply (p : JudgingPatch) (j : Judging) : key (p.apply j) = key j := rfl

theorem Rejudging.key_decide (q : Rejudging) (applied : Bool) (now : Instant)
    (operator : Option Int) : key (q.decide applied now operator) = key q := rfl

theorem Dispatch.key_compiled (j : Judging) (success : Bool) (output : String) (now : Instant) :
    key (compiled j success output now) = key j := by
  unfold compiled
  split <;> rfl

namespace Store

variable (s : Store)

/-! ## Judgings that are queued, handed out and graded -/

/-- Queues a judging under the next id. -/
def queue (new : NewJudging) : Store :=
  { s with
    judgings := s.judgings.insert (new.queued (s.lastJudging + 1))
    lastJudging := s.lastJudging + 1 }

/-- Hands a judging to a judgehost. -/
def handOut (id : Int) (hostname : String) (now : Instant) : Store :=
  { s with
    judgings := s.judgings.modify id (·.claimedBy hostname now)
      fun j => j.key_claimedBy hostname now }

/-- Leaves a judging in the queue that has been handed out and put back. -/
def putBack (id : Int) : Store :=
  { s with judgings := s.judgings.modify id Judging.unclaimed Judging.key_unclaimed }

end Store

namespace Grading

/-- The reports that are recorded: of each testcase that has not been seen
the first one. -/
def fresh : List Int → List RunReport → List RunReport
  | _, [] => []
  | seen, r :: rest =>
    if seen.contains r.testcaseId then fresh seen rest
    else r :: fresh (r.testcaseId :: seen) rest

/-- What some reports add to the progress of a judging. -/
def fragment : List RunReport → String
  | [] => ""
  | r :: rest => progress r.verdict ++ fragment rest

/-- A judging after a batch: it ends if its runs complete it. -/
def graded (j : Judging) (runs : List Run) (testcases : List Testcase) (fragment : String)
    (now : Instant) : Judging :=
  let summary := Summary.ofRuns runs testcases
  let j := { j with runVerdicts := j.runVerdicts ++ fragment }
  if summary.isComplete j.fullTest testcases.length then finish j summary now else j

theorem key_graded (j : Judging) (runs : List Run) (testcases : List Testcase) (fragment : String)
    (now : Instant) : key (graded j runs testcases fragment now) = key j := by
  unfold graded
  simp only
  split <;> rfl

end Grading

namespace Store

variable (s : Store)

/-- Records how compiling a judging went. -/
def compile (id : Int) (success : Bool) (output : String) (now : Instant) : Store :=
  { s with
    judgings := s.judgings.modify id (Dispatch.compiled · success output now)
      fun j => Dispatch.key_compiled j success output now }

/-- Records runs of a judging one after another. -/
def recordRuns (judgingId : Int) (now : Instant) (reports : List RunReport) : Store :=
  reports.foldl (fun s r => (s.insertRun (Grading.RunReport.toRun r judgingId now)).2) s

/-- Records runs of a judging, and ends it if they complete it. -/
def grade (id problemId : Int) (reports : List RunReport) (now : Instant) : Store :=
  let runs := (s.recordRuns id now reports).runsOf id
  let testcases := s.testcasesOf problemId
  { s.recordRuns id now reports with
    judgings := s.judgings.modify id
      (Grading.graded · runs testcases (Grading.fragment reports) now)
      fun j => Grading.key_graded j runs testcases (Grading.fragment reports) now }

/-- Queues a fresh attempt in the place of a judging, which is abandoned. -/
def replace (j : Judging) (now : Instant) : Store :=
  { s.queue (.replacing j) with
    judgings := (s.queue (.replacing j)).judgings.modify j.id (JudgingPatch.abandon now).apply
      (JudgingPatch.abandon now).key_apply }

/-- Abandons some judgings. -/
def abandonAll (p : Judging → Bool) (now : Instant) : Store :=
  { s with
    judgings := s.judgings.update p (JudgingPatch.abandon now).apply
      (JudgingPatch.abandon now).key_apply }

/-! ## Rejudging -/

/-- The active judging of a submission. -/
def activeOf (submissionId : Int) : Option Judging :=
  s.judgings.rows.find? fun j => j.submissionId = submissionId && j.active

/-- Takes all judgings of a submission out of force and out of the
statistics, and queues a fresh active one. -/
def rejudge (submissionId : Int) (fullTest : Bool) : Store :=
  let retired : Store :=
    { s with
      judgings := s.judgings.update (fun j => j.submissionId = submissionId) Judging.retired
        Judging.key_retired }
  retired.queue
    ⟨submissionId, true, fullTest, none, (s.activeOf submissionId).map Judging.id⟩

/-- Moves submissions into a rejudging. -/
def mark (rejudgingId : Int) (ids : List Int) : Store :=
  { s with
    submissions := s.submissions.update (fun r => ids.contains r.id) (.moved (some rejudgingId))
      (Submission.key_moved (some rejudgingId)) }

/-- Moves a submission into a rejudging, and queues a candidate beside its
active judging. -/
def propose (submissionId rejudgingId : Int) (active : Judging) (fullTest : Bool) : Store :=
  let moved : Store :=
    { s with
      submissions := s.submissions.modify submissionId (.moved (some rejudgingId))
        (Submission.key_moved (some rejudgingId)) }
  moved.queue (Rejudge.candidate rejudgingId fullTest active)

/-- What the service switches off of its own accord: a language or a problem
that the store has. -/
def Catalogues (s : Store) : DisableTarget → Prop
  | .language id => s.languages.contains id = true
  | .problem id => s.problems.contains id = true
  | _ => False

/-- Whether a rejudging holds a candidate for a submission. -/
def holds (rejudgingId submissionId : Int) : Bool :=
  s.judgings.rows.any fun j => j.submissionId = submissionId && j.rejudgingId = some rejudgingId

/-- Lets the submissions of a rejudging go. -/
def release (rejudgingId : Int) : Table Submission :=
  s.submissions.update (fun r => r.rejudgingId = some rejudgingId) (.moved none)
    (Submission.key_moved none)

/-- Decides a rejudging. -/
def decided (rejudgingId : Int) (applied : Bool) (now : Instant) (operator : Option Int) :
    Table Rejudging :=
  s.rejudgings.modify rejudgingId (·.decide applied now operator)
    fun q => q.key_decide applied now operator

/-- Makes the candidates of a rejudging the active and counted judgings of
their submissions, each the only one. -/
def applyRejudging (id : Int) (now : Instant) (operator : Option Int) : Store :=
  { s with
    judgings := s.judgings.update (fun j => s.holds id j.submissionId) (.settled id)
      (Judging.key_settled id)
    submissions := s.release id
    rejudgings := s.decided id true now operator }

/-- Drops the queued candidates of a rejudging with their runs, and abandons
the claimed ones. -/
def cancelRejudging (id : Int) (now : Instant) (operator : Option Int) : Store :=
  let doomed (j : Judging) : Bool := j.rejudgingId = some id && j.isQueued
  { s with
    runs := s.runs.keep fun r => !((s.judgings.filter doomed).map Judging.id).contains r.judgingId
    judgings := (s.judgings.keep fun j => !doomed j).update
      (fun j => j.rejudgingId = some id && j.isClaimed) (JudgingPatch.abandon now).apply
      (JudgingPatch.abandon now).key_apply
    submissions := s.release id
    rejudgings := s.decided id false now operator }

/-! ## Standings -/

/-- Flags a judging if it is active and has ended. -/
def countJudging (id : Int) : Store :=
  { s with judgings := s.judgings.modify id Judging.flagged Judging.key_flagged }

/-- The submissions of a contest. -/
def submissionsOf (contestId : Int) : List Submission :=
  s.submissions.filter (SubmissionFilter.ofContest contestId).admits

/-- Whether a submission belongs to a contest. -/
def isOf (contestId submissionId : Int) : Bool :=
  ((s.submissionsOf contestId).map Submission.id).contains submissionId

/-- The rows of a contest as its active judgings make them. -/
def standings (contestId : Int) : List StatisticsRow :=
  Standings.rowsOf (s.submissionsOf contestId)
    (s.judgings.filter fun j => s.isOf contestId j.submissionId && (j.active && j.isFinalized))

/-- Replaces the rows of a contest, and flags its judgings afresh. -/
def rebuild (contestId : Int) : Store :=
  { s.replaceStatistics contestId (s.standings contestId) with
    judgings := s.judgings.update (fun j => s.isOf contestId j.submissionId) Judging.reflagged
      Judging.key_reflagged }

end Store

/-! ## The kinds of changes -/

/-- Submissions outside of any rejudging are rejudged one after another, and
the deltas that take back what they had counted are collected. -/
inductive Rejudged : Store → List StatisticsDelta → Store → Prop
  | none {s : Store} : Rejudged s [] s
  | next {s s' : Store} {r : Submission} {ds es : List StatisticsDelta} {fullTest : Bool}
      (hr : r ∈ s.submissions) (hfree : r.rejudgingId = .none)
      (hfull : r.requiresFullTest = true → fullTest = true)
      (hds : s.Bridges ds (s.rejudge r.id fullTest))
      (rest : Rejudged (s.rejudge r.id fullTest) es s') : Rejudged s (ds ++ es) s'

/-- One change of the store at an instant, with the events that tell of it. -/
inductive Change (now : Instant) : Store → List Event → Store → Prop
  | addJudgehost {s : Store} {hostname : String} (hnew : s.judgehosts.find? hostname = none) :
      Change now s [] { s with judgehosts := s.judgehosts.insert ⟨hostname, true, some now⟩ }
  | touchJudgehost {s : Store} (hostname : String) :
      Change now s [] (s.touchJudgehost hostname now)
  | switchJudgehost {s : Store} (hostname : String) (active : Bool) :
      Change now s [] (s.setJudgehostActive hostname active)
  | switchProblem {s : Store} (id : Int) (allow : Bool) :
      Change now s [] (s.setProblemAllowed id allow)
  | switchLanguage {s : Store} (id : String) (allow : Bool) :
      Change now s [] (s.setLanguageAllowed id allow)
  | raise {s : Store} (new : NewInternalError) (target : DisableTarget)
      (htarget : target = .ofValue new.disabled ∨
        s.Catalogues target ∧ new.disabled = target.toValue) :
      Change now s [.internalErrorRaised (s.lastInternalError + 1) new.judgingId target.kind]
        (s.insertInternalError new).2
  | close {s : Store} {e : InternalError} {status : ErrorStatus} (he : e ∈ s.internalErrors)
      (hopen : e.status = .opened) (hclosing : status ≠ .opened) :
      Change now s []
        { s with internalErrors := s.internalErrors.modify e.id ({ · with status }) fun _ => rfl }
  | removeTestcase {s : Store} {t : Testcase} (ht : t ∈ s.testcases)
      (hidle : ∀ j ∈ s.judgings, ∀ r ∈ s.submissions, j.submissionId = r.id →
        r.problemId = t.problemId → j.isClaimed = false) :
      Change now s [] (s.deleteTestcase t.id).2
  | enqueue {s : Store} {r : Submission} (hr : r ∈ s.submissions)
      (hidle : ∀ j ∈ s.judgings, j.submissionId = r.id → j.active = false) :
      Change now s [] (s.queue ⟨r.id, true, r.requiresFullTest, none, none⟩)
  | claim {s : Store} {j : Judging} {hostname : String}
      (hhost : (s.judgehosts.find? hostname).any Judgehost.active = true)
      (hj : s.nextDispatchable = some j) :
      Change now s [.judgingBegun j.id j.submissionId hostname] (s.handOut j.id hostname now)
  | putBack {s : Store} {j : Judging} (hj : s.nextDispatchable = some j) :
      Change now s [] (s.putBack j.id)
  | compile {s : Store} {j : Judging} {hostname : String} (hj : j ∈ s.judgings)
      (hheld : j.isClaimedBy hostname = true) (success : Bool) (output : String) :
      Change now s (if success then [] else [.judgingFinished j.id j.submissionId])
        (s.compile j.id success output now)
  | grade {s : Store} {j : Judging} {r : Submission} {hostname : String}
      {reports : List RunReport} (hj : j ∈ s.judgings) (hheld : j.isClaimedBy hostname = true)
      (hr : r ∈ s.submissions) (hsub : j.submissionId = r.id)
      (hverdict : ∀ p ∈ reports, p.verdict.isRunVerdict = true)
      (htestcase : ∀ p ∈ reports, ∃ t ∈ s.testcasesOf r.problemId, t.id = p.testcaseId)
      (hfresh : ∀ p ∈ reports, ∀ n ∈ s.runsOf j.id, n.testcaseId ≠ p.testcaseId)
      (hnodup : (reports.map RunReport.testcaseId).Nodup) :
      Change now s
        (if (Summary.ofRuns ((s.recordRuns j.id now reports).runsOf j.id)
            (s.testcasesOf r.problemId)).isComplete j.fullTest (s.testcasesOf r.problemId).length
          then [.judgingFinished j.id j.submissionId] else [])
        (s.grade j.id r.problemId reports now)
  | requeue {s : Store} {j : Judging} (hj : j ∈ s.judgings) (hheld : j.isClaimed = true)
      (hsub : ∃ r ∈ s.submissions, r.id = j.submissionId) :
      Change now s [.judgingFinished j.id j.submissionId] (s.replace j now)
  | rejudge {s s' : Store} {ds es : List StatisticsDelta} (h : Rejudged s ds s')
      (hes : ∀ k, sumAt k es = sumAt k ds) : Change now s [] (s'.mergeStatistics es)
  | openRejudging {s : Store} (new : NewRejudging) : Change now s [] (s.insertRejudging new now).2
  | propose {s : Store} {q : Rejudging} {r : Submission} {j : Judging}
      (hq : q ∈ s.rejudgings) (hopen : q.applied = none) (hr : r ∈ s.submissions)
      (hfree : r.rejudgingId = none) (hcontest : r.contestId = q.contestId) (hj : j ∈ s.judgings)
      (hsub : j.submissionId = r.id) (hactive : j.active = true) (fullTest : Bool) :
      Change now s [] (s.propose r.id q.id j fullTest)
  | apply {s : Store} {q : Rejudging} {ds : List StatisticsDelta} (hq : q ∈ s.rejudgings)
      (hopen : q.applied = none)
      (hdone : ∀ j ∈ s.judgings, j.rejudgingId = some q.id → j.isFinalized = true)
      (operator : Option Int) (hds : s.Bridges ds (s.applyRejudging q.id now operator)) :
      Change now s [] ((s.applyRejudging q.id now operator).mergeStatistics ds)
  | cancel {s : Store} {q : Rejudging} (hq : q ∈ s.rejudgings) (hopen : q.applied = none)
      (operator : Option Int) :
      Change now s
        ((s.judgings.filter fun j => j.rejudgingId = some q.id && j.isClaimed).map fun j =>
          .judgingFinished j.id j.submissionId)
        (s.cancelRejudging q.id now operator)
  | count {s : Store} {ds : List StatisticsDelta} (id : Int)
      (hds : s.Bridges ds (s.countJudging id)) :
      Change now s [] ((s.countJudging id).mergeStatistics ds)
  | rebuild {s : Store} (contestId : Int) : Change now s [] (s.rebuild contestId)

/-- Changes one after another, all at one instant, with their events in
order. -/
inductive Trace (now : Instant) : Store → List Event → Store → Prop
  | refl {s : Store} : Trace now s [] s
  | step {s s₁ s₂ : Store} {es fs : List Event} (h : Change now s es s₁)
      (rest : Trace now s₁ fs s₂) :
      Trace now s (es ++ fs) s₂

namespace Trace

variable {now : Instant} {s s₁ s₂ : Store} {es fs : List Event}

/-- A change is a trace. -/
theorem of_change (h : Change now s es s₁) : Trace now s es s₁ := by
  have := Trace.step h .refl
  rwa [List.append_nil] at this

theorem trans (h : Trace now s es s₁) (h' : Trace now s₁ fs s₂) : Trace now s (es ++ fs) s₂ := by
  induction h with
  | refl => exact h'
  | step hc _ ih =>
    rw [List.append_assoc]
    exact .step hc (ih h')

/-- A change without events may stand before a trace. -/
theorem silent (h : Change now s [] s₁) (h' : Trace now s₁ es s₂) : Trace now s es s₂ :=
  .step h h'

/-- **What every change keeps, every trace keeps.** -/
theorem keeps {P : Store → Prop} (h : Trace now s es s₁)
    (hP : ∀ {s s' : Store} {es : List Event}, Change now s es s' → P s → P s') (hs : P s) :
    P s₁ := by
  induction h with
  | refl => exact hs
  | step hc _ ih => exact ih (hP hc hs)

end Trace

end JudgeQueue
