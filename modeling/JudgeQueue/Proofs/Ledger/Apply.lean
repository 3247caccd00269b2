import JudgeQueue.Proofs.Ledger.Recount
import JudgeQueue.Proofs.Trace.Rejudging
/-!
# The ledger — applying a rejudging without faults

An application goes through, or it is refused before it changes anything: if
there is no such rejudging, if it has been decided, or if some of its
candidates have not ended.
-/

namespace JudgeQueue

open Transaction

/-- The candidates that are left to do are those that have not ended. -/
theorem todo_ofCandidates (candidates : List Judging) :
    (Progress.ofCandidates candidates).todo = candidates.countP fun j => !j.isFinalized := by
  unfold Progress.todo Progress.ofCandidates
  simp only
  induction candidates with
  | nil => rfl
  | cons j rest ih =>
    rw [List.countP_cons, List.countP_cons, List.countP_cons]
    cases hl : j.lifecycle <;>
      simp only [Judging.isQueued, Judging.isClaimed, Judging.isFinalized, hl] at ih ⊢ <;>
      simp <;> omega

namespace Store

/-- The candidates of a rejudging. -/
def candidatesOf (s : Store) (id : Int) : List Judging :=
  s.judgings.filter (JudgingFilter.ofRejudging id).admits

end Store

namespace Rejudge

variable {w : World} {q : Rejudging}

/-! ## Loading -/

theorem run_loadOpen (hq : q ∈ w.store.rejudgings) (hopen : q.applied = none) :
    (loadOpen q.id).run w = (.ok q, w) := by
  have hfind : w.store.rejudgings.find? q.id = some q := Table.find?_key hq
  have hcheck : q.isOpen = true := by
    rw [Rejudging.isOpen, hopen]
    rfl
  rw [loadOpen, run_bind (run_ask rfl), hfind, run_bind (x := need _ (some q)) rfl, unlessError,
    if_pos hcheck]
  rfl

/-- An id without a rejudging is refused. -/
theorem run_loadOpen_of_missing {id : Int} (h : w.store.rejudgings.find? id = none) :
    (loadOpen id).run w = (.error (.notFound (.rejudging id)), w) := by
  rw [loadOpen, run_bind (run_ask rfl), h]
  rfl

/-- So is a rejudging that has been decided. -/
theorem run_loadOpen_of_decided (hq : q ∈ w.store.rejudgings) (hdecided : q.isOpen = false) :
    (loadOpen q.id).run w = (.error (.conflict (.alreadyDecided q.id q.state)), w) := by
  have hfind : w.store.rejudgings.find? q.id = some q := Table.find?_key hq
  rw [loadOpen, run_bind (run_ask rfl), hfind, run_bind (x := need _ (some q)) rfl, unlessError,
    hdecided, if_neg Bool.false_ne_true]
  rfl

/-! ## Applying -/

theorem run_candidates (id : Int) :
    (ask (.findJudgings (.ofRejudging id))).run w = (.ok (w.store.candidatesOf id), w) :=
  run_ask (r := (w.store.candidatesOf id, w.store)) rfl

/-- **An open rejudging with candidates to do** is not applied. -/
theorem run_apply_of_unfinished (hq : q ∈ w.store.rejudgings) (hopen : q.applied = none)
    (htodo : (Progress.ofCandidates (w.store.candidatesOf q.id)).todo ≠ 0) (operator : Option Int)
    (now : Instant) :
    (apply q.id operator now).run w =
      (.error (.conflict (.unfinished q.id
        (Progress.ofCandidates (w.store.candidatesOf q.id)).todo)), w) := by
  rw [todo_ofCandidates] at htodo ⊢
  rw [apply, run_bind (run_loadOpen hq hopen), run_bind (run_candidates q.id)]
  refine run_bind_error ?_
  rw [unlessError, if_neg fun hzero => htodo (of_decide_eq_true hzero)]
  rfl

/-- Taking the judgings of some submissions out of force retires them. -/
theorem run_retire (ids : List Int) :
    ∃ ds, (do
        let _ ← ask (.updateJudgings { submissionIds := some ids, active := some true }
          (.setActive false))
        Standings.uncount (.ofSubmissions ids)).run w =
      (.ok ds, { w with store := w.store.retireAll ids }) := by
  obtain ⟨ds, huncount⟩ := Standings.run_uncount
    (w := { w with
      store := (w.store.updateJudgings { submissionIds := some ids, active := some true }
        (.setActive false)).2 }) (.ofSubmissions ids)
  have hadmits : ∀ j ∈ w.store.judgings,
      JudgingFilter.admits { submissionIds := some ids, active := some true } j =
        (ids.contains j.submissionId && j.active) := by
    intro j _
    simp [JudgingFilter.admits]
  rw [Store.retire_eq hadmits] at huncount
  refine ⟨ds, ?_⟩
  rw [run_bind (run_ask rfl)]
  exact huncount

/-- Bringing judgings into force promotes them. -/
theorem run_promote (ids : List Int) :
    ∃ ds, (do
        let _ ← ask (.updateJudgings (.ofIds ids) (.setActive true))
        Standings.count (.ofIds ids)).run w =
      (.ok ds, { w with store := w.store.promoteAll ids }) := by
  obtain ⟨ds, hcount⟩ := Standings.run_count
    (w := { w with store := (w.store.updateJudgings (.ofIds ids) (.setActive true)).2 })
    (.ofIds ids)
  rw [Store.promote_eq] at hcount
  refine ⟨ds, ?_⟩
  rw [run_bind (run_ask rfl)]
  exact hcount

/-- **An open rejudging whose candidates have all ended** is applied. -/
theorem run_apply (hq : q ∈ w.store.rejudgings) (hopen : q.applied = none)
    (htodo : (Progress.ofCandidates (w.store.candidatesOf q.id)).todo = 0) (operator : Option Int)
    (now : Instant) :
    ∃ ds, (apply q.id operator now).run w =
      (.ok (.commit (q.decide true now operator) []),
        { w with store := (w.store.applyRejudging q.id now operator).mergeStatistics ds }) := by
  rw [todo_ofCandidates] at htodo
  have hdone : ∀ j ∈ w.store.judgings, j.rejudgingId = some q.id → j.isFinalized = true :=
    fun j hj hid => isFinalized_of_candidate htodo hj hid
  have hstore := updateRejudging_promoteCandidates hdone hq hopen now operator
  have hcheck : (unlessError
      (decide (((w.store.candidatesOf q.id).countP fun j => !j.isFinalized) = 0))
      (.conflict (.unfinished q.id
        ((w.store.candidatesOf q.id).countP fun j => !j.isFinalized)))).run w = (.ok (), w) := by
    rw [unlessError, if_pos (decide_eq_true htodo)]
    rfl
  obtain ⟨retracted, hretire⟩ := run_retire (w := w)
    ((w.store.candidatesOf q.id).map Judging.submissionId)
  obtain ⟨counted, hpromote⟩ := run_promote
    (w := { w with
      store := w.store.retireAll ((w.store.candidatesOf q.id).map Judging.submissionId) })
    ((w.store.candidatesOf q.id).map Judging.id)
  have hdecide : (Query.updateRejudging (q.decide true now operator)).run
      ((promoteCandidates w.store q.id).setSubmissionsRejudging (.ofRejudging q.id) none).2 =
      .ok ((), w.store.applyRejudging q.id now operator) := by
    rw [Query.run, hstore]
    rfl
  refine ⟨StatisticsDelta.mergeAll (retracted ++ counted), ?_⟩
  rw [apply, run_bind (run_loadOpen hq hopen), run_bind (run_candidates q.id)]
  simp only
  rw [run_bind hcheck, ← bind_assoc, run_bind hretire, ← bind_assoc, run_bind hpromote]
  rw [run_bind (run_ask rfl), run_bind (run_ask hdecide), run_bind (run_ask rfl)]
  rfl

end Rejudge

end JudgeQueue
