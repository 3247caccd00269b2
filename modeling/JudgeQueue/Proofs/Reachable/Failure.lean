import JudgeQueue.Proofs.Reachable.Basic
import JudgeQueue.Proofs.Trace.Effects
/-!
# Reachable worlds — requests that fail

A request may fail for reasons of its own or because a step of it does, at any
of its steps and while blobs are put or read. It has then changed no row and no
sequence and published nothing. There is one trace that it may leave: fetching
a testcase records that the judgehost has called before it reads the content.
Requests that are refused without an error leave no trace at all.
-/

namespace JudgeQueue

open Transaction

variable {α : Type}

namespace Operation

/-- The judgehost that makes the request. -/
def caller? : Operation α → Option String
  | register hostname | claimJudging hostname | claimTestcase hostname _
  | fetchTestcase hostname _ _ | reportCompilation hostname _ _ _ | reportRuns hostname _ _ =>
    some hostname
  | _ => none

/-- Whether an answer says that there was nothing to do, or that it may not be
done. -/
def Refuses : Operation α → α → Prop
  | returnToQueue _, requeued => requeued = none
  | sweepStale _, requeued => requeued = []
  | deleteTestcase _, deletion => deletion.reason? ≠ none
  | _, _ => False

/-- Whether a request has failed or been refused. -/
def Fails (op : Operation α) : Except Error α → Prop
  | .error _ => True
  | .ok a => op.Refuses a

end Operation

/-- A refusal is never what a body commits. -/
def Transaction.Ending.Accepts {α : Type} (op : Operation α) : Ending α → Prop
  | .commit a _ => ¬ op.Refuses a
  | .rollback _ => True

variable {w : World} {ctx : Context}

/-- A request that commits no refusal leaves no trace if it refuses. -/
theorem transact_refused {op : Operation α} {E : List Effect} {body : Transaction (Ending α)}
    (h : body.Within E (Ending.Accepts op)) {a : α} (ha : (transact ctx w body).answer = .ok a)
    (hrefused : op.Refuses a) :
    (transact ctx w body).events = [] ∧ (transact ctx w body).world.store = w.store := by
  rcases transact_within h ctx w with ⟨b, hanswer, haccepts⟩ | ⟨hstore, hevents, -⟩
  · rw [hanswer] at ha
    cases ha
    exact absurd hrefused haccepts
  · exact ⟨hevents, hstore⟩

/-! ## The requests that refuse -/

theorem Recovery.accepts_returnToQueue (judgingId : Int) (now : Instant) :
    (returnToQueue judgingId now).Within [] (Ending.Accepts (.returnToQueue judgingId)) := by
  refine (asks_loadJudging judgingId).bind fun j => ?_
  split
  · exact (asks_requeue j now).bind fun r => Option.some_ne_none r
  · trivial

theorem Recovery.accepts_sweepStale (timeout : Span) (now : Instant) :
    (sweepStale timeout now).Within [] (Ending.Accepts (.sweepStale timeout)) := by
  refine (asks_ask rfl).bind fun _ => (asks_requeueHeldByAny now _).bind fun rs => ?_
  split
  · trivial
  · next hsome =>
    intro hnone
    rw [hnone] at hsome
    exact hsome rfl

theorem accepts_deleteTestcase (id : Int) :
    (deleteTestcase id).Within [.removes] (Ending.Accepts (.deleteTestcase id)) := by
  refine (asks_ask rfl).bind fun found => ?_
  cases found with
  | none => trivial
  | some testcase =>
    refine (asks_ask rfl).bind fun _ => (asks_ask rfl).bind fun claimed => ?_
    split
    · exact (asks_ask_effect rfl List.mem_cons_self).bind fun _ hreason => hreason rfl
    · trivial

namespace World

/-- **A refusal leaves no trace.** -/
theorem perform_refused {op : Operation α} {a : α} (ha : (op.perform ctx w).answer = .ok a)
    (hrefused : op.Refuses a) :
    (op.perform ctx w).events = [] ∧ (op.perform ctx w).world.store = w.store := by
  cases op with
  | returnToQueue judgingId =>
    exact transact_refused (Recovery.accepts_returnToQueue judgingId ctx.now) ha hrefused
  | sweepStale timeout =>
    exact transact_refused (Recovery.accepts_sweepStale timeout ctx.now) ha hrefused
  | deleteTestcase id => exact transact_refused (accepts_deleteTestcase id) ha hrefused
  | _ => exact hrefused.elim

/-- **An error leaves no trace**, but for the call of the judgehost that
fetches a testcase. -/
theorem perform_error {op : Operation α} {e : Error} (he : (op.perform ctx w).answer = .error e) :
    (op.perform ctx w).events = [] ∧
      ((op.perform ctx w).world.store = w.store ∨ ∃ hostname, op.caller? = some hostname ∧
        (op.perform ctx w).world.store = w.store.touchJudgehost hostname ctx.now) := by
  cases op with
  | fetchTestcase hostname testcaseId kind =>
    refine ⟨Dispatch.events_fetchTestcase .., ?_⟩
    exact (store_fetchTestcase hostname testcaseId kind).imp_right fun hstore =>
      ⟨hostname, rfl, hstore⟩
  | runOutput => exact ⟨rfl, .inl rfl⟩
  | _ => exact (transact_error he).imp_right .inl

/-- **What fails leaves no trace.** Whatever a request is, in whatever world it
is made and whichever of its steps fail: if it is answered with an error, or
with the refusal to do anything, then it has published nothing, and all tables
and all sequences are as they were; after an error the judgehost that has
called may have its poll time set. -/
theorem perform_failed {op : Operation α} (h : op.Fails (op.perform ctx w).answer) :
    (op.perform ctx w).events = [] ∧
      ((op.perform ctx w).world.store = w.store ∨
        (∃ e, (op.perform ctx w).answer = .error e) ∧ ∃ hostname, op.caller? = some hostname ∧
          (op.perform ctx w).world.store = w.store.touchJudgehost hostname ctx.now) := by
  cases hanswer : (op.perform ctx w).answer with
  | error e =>
    obtain ⟨hevents, hstore⟩ := perform_error hanswer
    exact ⟨hevents, hstore.imp_right fun htouched => ⟨⟨e, rfl⟩, htouched⟩⟩
  | ok a =>
    rw [hanswer] at h
    obtain ⟨hevents, hstore⟩ := perform_refused hanswer h
    exact ⟨hevents, .inl hstore⟩

/-- Surroundings in which no judging can be queued for the second
submission. -/
def faultyContext : Context :=
  { contestContext with
    faults := { Faults.none with
      onQuery := fun _ q => match q with
        | .insertJudging new => if new.submissionId = 2 then some (.internal "no space") else none
        | _ => none } }

/-- In the small contest, rejudging both submissions fails at the second one
and leaves the first one alone, and a judging that has ended does not return to
the queue. -/
theorem failed_contestCounted :
    (((Operation.batchRejudge { contestId := 1 } none false).perform faultyContext
        contestCounted).answer.isOk = false ∧
      ((Operation.batchRejudge { contestId := 1 } none false).perform faultyContext
        contestCounted).events = [] ∧
      ((Operation.batchRejudge { contestId := 1 } none false).perform faultyContext
        contestCounted).world.store = contestCounted.store) ∧
    ((Operation.returnToQueue 1).perform contestContext contestCounted).answer.toOption =
        some none ∧
      ((Operation.returnToQueue 1).perform contestContext contestCounted).events = [] ∧
      ((Operation.returnToQueue 1).perform contestContext contestCounted).world.store =
        contestCounted.store := by
  have hbatch : ((Operation.batchRejudge { contestId := 1 } none false).perform faultyContext
      contestCounted).answer.isOk = false := by
    decide +kernel
  have hreturn : ((Operation.returnToQueue 1).perform contestContext
      contestCounted).answer.toOption = some none := by
    decide +kernel
  have hfailed : (Operation.batchRejudge { contestId := 1 } none false).Fails
      ((Operation.batchRejudge { contestId := 1 } none false).perform faultyContext
        contestCounted).answer := by
    cases hanswer : ((Operation.batchRejudge { contestId := 1 } none false).perform
        faultyContext contestCounted).answer with
    | error e => trivial
    | ok judgings =>
      rw [hanswer] at hbatch
      cases hbatch
  have hrefused : (Operation.returnToQueue 1).Fails
      ((Operation.returnToQueue 1).perform contestContext contestCounted).answer := by
    cases hanswer : ((Operation.returnToQueue 1).perform contestContext
        contestCounted).answer with
    | error e => trivial
    | ok requeued =>
      rw [hanswer] at hreturn
      exact Option.some.inj hreturn
  -- neither request is made by a judgehost
  obtain ⟨hevents, hstore | ⟨-, hostname, hcaller, -⟩⟩ := perform_failed hfailed
  · obtain ⟨hnone, hsame | ⟨-, hostname, hcaller, -⟩⟩ := perform_failed hrefused
    · exact ⟨⟨hbatch, hevents, hstore⟩, hreturn, hnone, hsame⟩
    · cases hcaller
  · cases hcaller

end World

end JudgeQueue
