import JudgeQueue.Proofs.Ledger.Apply
import JudgeQueue.Proofs.Trace.Effects
/-!
# Requests — what is refused

A request that would fail without faults fails with any, and leaves the world
alone. So a refusal needs to be found on the run without faults alone. That
way requests are refused that name a rejudging which has been decided, or an
internal error which has been closed.
-/

namespace JudgeQueue

open Transaction

variable {α : Type} {w w' : World}

/-- **No fault makes a program succeed** that fails without it. -/
theorem Transaction.exists_error_of_run {x : Transaction α} {e : Error}
    (h : x.run w = (.error e, w')) (faults : Faults) (n : Nat) :
    ∃ e', (x.exec faults n w).1 = .error e' := by
  induction x generalizing n w with
  | done a => cases h
  | fail e' => exact ⟨e', rfl⟩
  | query q next ih =>
    simp only [run] at h
    simp only [exec]
    split
    · exact ⟨_, rfl⟩
    · split at h
      · next b store _ => exact ih b h (n + 1)
      · exact ⟨_, rfl⟩
  | put key data next ih =>
    simp only [run] at h
    simp only [exec]
    split
    · exact ⟨_, rfl⟩
    · split at h
      · exact ih h (n + 1)
      · exact ⟨_, rfl⟩

/-- The request is refused: it answers an error and leaves the world as it
was. Without faults the error is the one that is named. -/
structure Operation.IsRefused (op : Operation α) (w : World) (e : Error) : Prop where
  error : ∀ ctx : Context, ctx.faults = .none → op.perform ctx w = ⟨.error e, w, []⟩
  idle : ∀ ctx : Context, ∃ e', op.perform ctx w = ⟨.error e', w, []⟩

/-- **A request is refused** if its body fails without faults. -/
theorem isRefused_of_run {op : Operation α} {body : Context → Transaction (Ending α)} {e : Error}
    (hbody : ∀ ctx, op.perform ctx w = transact ctx w (body ctx)) (hreports : op.reports? = none)
    (hrun : ∀ ctx, (body ctx).run w = (.error e, w)) : op.IsRefused w e where
  error ctx hfaults := by
    rw [hbody]
    exact transact_run_error hfaults (hrun ctx)
  idle ctx := by
    obtain ⟨e', hexec⟩ := exists_error_of_run (hrun ctx) ctx.faults 0
    have hperform : op.perform ctx w =
        ⟨.error e', { ((body ctx).exec ctx.faults 0 w).2 with store := w.store }, []⟩ := by
      rw [hbody, transact]
      generalize (body ctx).exec ctx.faults 0 w = result at hexec
      obtain ⟨answer, w₁⟩ := result
      cases hexec
      rfl
    have hblobs := (perform_quiet hreports ctx w).1
    rw [hperform] at hblobs ⊢
    exact ⟨e', congrArg (fun blobs => (⟨.error e', { w with blobs }, []⟩ : Outcome α)) hblobs⟩

/-! ## Rejudgings that have been decided -/

section Decided

variable {q : Rejudging} (hq : q ∈ w.store.rejudgings) (hdecided : q.isOpen = false)

include hq hdecided

theorem isRefused_applyRejudging (operator : Option Int) :
    (Operation.applyRejudging q.id operator).IsRefused w
      (.conflict (.alreadyDecided q.id q.state)) :=
  isRefused_of_run (fun _ => rfl) rfl fun _ =>
    run_bind_error (Rejudge.run_loadOpen_of_decided hq hdecided)

theorem isRefused_cancelRejudging (operator : Option Int) :
    (Operation.cancelRejudging q.id operator).IsRefused w
      (.conflict (.alreadyDecided q.id q.state)) :=
  isRefused_of_run (fun _ => rfl) rfl fun _ =>
    run_bind_error (Rejudge.run_loadOpen_of_decided hq hdecided)

/-- A batch reads the rejudging before anything else, so it is refused
whatever it selects. -/
theorem isRefused_batchRejudge (selection : Selection) (fullTest : Bool) :
    (Operation.batchRejudge selection (some q.id) fullTest).IsRefused w
      (.conflict (.alreadyDecided q.id q.state)) := by
  refine isRefused_of_run (fun _ => rfl) rfl fun _ => run_bind_error ?_
  exact run_bind_error (Rejudge.run_loadOpen_of_decided hq hdecided)

end Decided

/-! ## Internal errors that have been closed -/

/-- Closing is refused for an error that has been closed. -/
theorem Incident.run_resolve_of_closed {e : InternalError} (he : e ∈ w.store.internalErrors)
    (hclosed : e.status ≠ .opened) {status : ErrorStatus} (hclosing : status ≠ .opened) :
    (resolve e.id status).run w = (.error (.conflict (.alreadyClosed e.id e.status)), w) := by
  have hfind : w.store.internalErrors.find? e.id = some e := Table.find?_key he
  have hstatus : (unlessError (decide (status ≠ .opened)) (.invalidInput .notClosing)).run w =
      (.ok (), w) := by
    rw [unlessError, if_pos (decide_eq_true hclosing)]
    rfl
  rw [resolve, run_bind hstatus, run_bind (run_ask rfl), hfind,
    run_bind (x := need _ (some e)) rfl]
  refine run_bind_error ?_
  rw [unlessError, if_neg fun hopen => hclosed (of_decide_eq_true hopen)]
  rfl

theorem isRefused_resolveError {e : InternalError} (he : e ∈ w.store.internalErrors)
    (hclosed : e.status ≠ .opened) {status : ErrorStatus} (hclosing : status ≠ .opened) :
    (Operation.resolveError e.id status).IsRefused w
      (.conflict (.alreadyClosed e.id e.status)) :=
  isRefused_of_run (fun _ => rfl) rfl fun _ =>
    Incident.run_resolve_of_closed he hclosed hclosing

end JudgeQueue
