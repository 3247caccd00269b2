import JudgeQueue.Proofs.Ledger.Balance
import JudgeQueue.Proofs.Trace.Dispatch
import JudgeQueue.Proofs.Trace.Grading
import JudgeQueue.Proofs.Trace.Recovery
import JudgeQueue.Proofs.Trace.Rejudging
import JudgeQueue.Proofs.Trace.Standings
/-!
# Traces of requests — all of them

Every request on a sound store leaves a trace of changes, and publishes the
events of the trace. Nothing is assumed of its surroundings: a request that
a fault stops leaves the empty trace.
-/

namespace JudgeQueue

open Transaction

variable {α : Type} {ctx : Context} {w : World}

/-- A request whose body traces leaves a trace, whether it is kept or
dropped. -/
theorem transact_trace {body : Transaction (Ending α)} (h : body.Traces ctx.now w.store) :
    Trace ctx.now w.store (transact ctx w body).events (transact ctx w body).world.store :=
  transact_events h .refl

/-- Fetching a testcase records the call at most. It reads the content after
that. -/
theorem store_fetchTestcase (hostname : String) (testcaseId : Int) (kind : TestcaseKind) :
    (Dispatch.fetchTestcase ctx w hostname testcaseId kind).world.store = w.store ∨
      (Dispatch.fetchTestcase ctx w hostname testcaseId kind).world.store =
        w.store.touchJudgehost hostname ctx.now := by
  have hfound : (transact ctx w (Dispatch.findContent hostname testcaseId ctx.now)).world.store =
        w.store ∨
      (transact ctx w (Dispatch.findContent hostname testcaseId ctx.now)).world.store =
        w.store.touchJudgehost hostname ctx.now :=
    transact_events (P := fun _ s => s = w.store ∨ s = w.store.touchJudgehost hostname ctx.now)
      ((Dispatch.commits_findContent hostname testcaseId ctx.now).mono fun _ _ _ h => .inr h)
      (.inl rfl)
  rwa [Dispatch.world_fetchTestcase]

/-- It publishes nothing whatever becomes of that. -/
theorem fetchTestcase_trace (hostname : String) (testcaseId : Int) (kind : TestcaseKind) :
    Trace ctx.now w.store (Dispatch.fetchTestcase ctx w hostname testcaseId kind).events
      (Dispatch.fetchTestcase ctx w hostname testcaseId kind).world.store := by
  rw [Dispatch.events_fetchTestcase]
  rcases store_fetchTestcase hostname testcaseId kind with hstore | hstore
  · rw [hstore]
    exact .refl
  · rw [hstore]
    exact .of_change (.touchJudgehost hostname)

theorem traces_list (status : Option ErrorStatus) {now : Instant} {s : Store} :
    (Incident.list status).Traces now s := by
  simp only [Traces, Incident.list, commits_bind, ensures_ask, Query.run]
  exact traces_commit _

/-- **Every request leaves a trace.** -/
theorem perform_trace (op : Operation α) (ctx : Context) (hs : w.store.Sound) :
    Trace ctx.now w.store (op.perform ctx w).events (op.perform ctx w).world.store := by
  cases op with
  | register hostname => exact transact_trace (Dispatch.traces_register hs hostname ctx.now)
  | claimJudging hostname =>
    exact transact_trace (Dispatch.traces_claimJudging hs ctx.scripts _ hostname ctx.now)
  | claimTestcase hostname judgingId =>
    exact transact_trace (Dispatch.traces_claimTestcase hs hostname judgingId ctx.now)
  | fetchTestcase hostname testcaseId kind => exact fetchTestcase_trace hostname testcaseId kind
  | reportCompilation hostname judgingId success output =>
    exact transact_trace
      (Dispatch.traces_reportCompilation hs hostname judgingId success output ctx.now)
  | reportRuns hostname judgingId reports =>
    exact transact_trace (Grading.traces_reportRuns hs hostname judgingId reports ctx.now)
  | runOutput => exact .refl
  | enqueue submissionId => exact transact_trace (Dispatch.traces_enqueue submissionId)
  | listJudgehosts => exact transact_trace Dispatch.traces_listJudgehosts
  | setJudgehostActive hostname active =>
    exact transact_trace (Dispatch.traces_setJudgehostActive hostname active)
  | setProblemJudging problemId allow =>
    exact transact_trace (Dispatch.traces_setProblemJudging problemId allow)
  | setLanguageJudging languageId allow =>
    exact transact_trace (Dispatch.traces_setLanguageJudging languageId allow)
  | returnToQueue judgingId => exact transact_trace (traces_returnToQueue hs judgingId ctx.now)
  | sweepStale timeout => exact transact_trace (traces_sweepStale hs timeout ctx.now)
  | reportError report => exact transact_trace (traces_report hs report ctx.now)
  | resolveError id status => exact transact_trace (traces_resolve id status)
  | listErrors status => exact transact_trace (traces_list status)
  | createRejudging new => exact transact_trace (Rejudge.traces_create new ctx.now)
  | getRejudging id => exact transact_trace (Rejudge.traces_get id)
  | batchRejudge selection rejudgingId fullTest =>
    exact transact_trace (Rejudge.traces_batch hs selection rejudgingId fullTest)
  | applyRejudging id operator => exact transact_trace (Rejudge.traces_apply id operator ctx.now)
  | cancelRejudging id operator => exact transact_trace (Rejudge.traces_cancel id operator ctx.now)
  | rejudgeSubmission submissionId =>
    exact transact_trace (Rejudge.traces_submission hs submissionId)
  | judgingFinished judgingId => exact transact_trace (Standings.traces_judgingFinished judgingId)
  | getStatistics contestId => exact transact_trace (Standings.traces_get contestId)
  | rebuildStatistics contestId => exact transact_trace (Standings.traces_rebuild contestId)
  | deleteTestcase testcaseId => exact transact_trace (traces_deleteTestcase testcaseId)

/-! ## What requests keep -/

namespace Store

variable {now : Instant} {s s' : Store} {es : List Event}

/-- The ledger is kept balanced by every trace. -/
theorem Sound.balanced_trace (h : s.Sound) (hb : s.Balanced) (ht : Trace now s es s') :
    s'.Balanced := by
  have hkeep := ht.keeps (P := fun s => s.Sound ∧ s.Balanced)
    (fun hc hs => ⟨hs.1.change hc, hs.1.balanced hs.2 hc⟩) ⟨h, hb⟩
  exact hkeep.2

/-- Submissions stay enrolled through every trace. -/
theorem Sound.enrolled_trace (h : s.Sound) (he : s.Enrolled) (ht : Trace now s es s') :
    s'.Enrolled := by
  have hkeep := ht.keeps (P := fun s => s.Sound ∧ s.Enrolled)
    (fun hc hs => ⟨hs.1.change hc, hs.1.enrolled hs.2 hc⟩) ⟨h, he⟩
  exact hkeep.2

/-- Submissions that have judgings keep some through every trace. -/
theorem Sound.keepsOwners_trace (h : s.Sound) (ht : Trace now s es s') : s.KeepsOwners s' := by
  induction ht with
  | refl => exact fun j hj => ⟨j, hj, rfl⟩
  | step hc _ ih => exact (h.keepsOwners hc).trans (ih (h.change hc))

/-- A judging that waits to be counted after a trace did so before it, or the
trace tells of its end. -/
theorem Sound.announces_trace (h : s.Sound) (ht : Trace now s es s') : s.Announces es s' := by
  induction ht with
  | refl => exact announces_of_eq rfl
  | step hc _ ih => exact (h.announces hc).trans (ih (h.change hc))

end Store

end JudgeQueue
