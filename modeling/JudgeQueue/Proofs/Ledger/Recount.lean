import JudgeQueue.Proofs.Ledger.Balance
import JudgeQueue.Proofs.Trace.Standings
import JudgeQueue.Proofs.Transaction.Run
/-!
# The ledger — counting and rebuilding without faults

Neither counting a judging nor rebuilding a contest has a reason of its own
to fail. Where no judging waits to be counted, a rebuild comes to the
counters and flags that are there already: the two ways in which the
statistics are kept agree.
-/

namespace JudgeQueue

open Transaction

namespace Standings

variable {w : World}

/-! ## Counting -/

/-- Contributions are read off the world, which stays. -/
theorem run_contributions (judgings : List Judging) :
    ∃ ds, (contributions judgings).run w = (.ok ds, w) := by
  unfold contributions
  split
  · exact ⟨[], rfl⟩
  · exact ⟨_, rfl⟩

/-- Counting flags judgings and answers some deltas. -/
theorem run_count (f : JudgingFilter) :
    ∃ ds, (count f).run w =
      (.ok ds, { w with
        store := (w.store.setJudgingsCounted
          { f with active := some true, lifecycle := some .finalized } true).2 }) := by
  obtain ⟨ds, hds⟩ := run_contributions
    (w := { w with
      store := (w.store.setJudgingsCounted
        { f with active := some true, lifecycle := some .finalized } true).2 })
    (w.store.setJudgingsCounted
      { f with active := some true, lifecycle := some .finalized } true).1
  refine ⟨ds, ?_⟩
  unfold count
  rw [run_bind (run_ask rfl)]
  exact hds

/-- Retracting clears flags and answers some deltas. -/
theorem run_uncount (f : JudgingFilter) :
    ∃ ds, (uncount f).run w =
      (.ok ds, { w with store := (w.store.setJudgingsCounted f false).2 }) := by
  obtain ⟨ds, hds⟩ := run_contributions
    (w := { w with store := (w.store.setJudgingsCounted f false).2 })
    (w.store.setJudgingsCounted f false).1
  refine ⟨ds.map StatisticsDelta.negated, ?_⟩
  unfold uncount
  rw [run_bind (run_ask rfl), run_bind hds]
  rfl

/-- **Counting a judging** flags it, if it is active and has ended, and adds
what it contributes. -/
theorem run_judgingFinished (judgingId : Int) :
    ∃ ds, (judgingFinished judgingId).run w =
      (.ok (.commit ds.head? []),
        { w with store := (w.store.countJudging judgingId).mergeStatistics ds }) := by
  obtain ⟨ds, hds⟩ := run_count (w := w) (.ofIds [judgingId])
  rw [setJudgingsCounted_ofId] at hds
  refine ⟨ds, ?_⟩
  unfold judgingFinished
  rw [run_bind hds, run_bind (run_ask rfl)]
  rfl

/-! ## Rebuilding -/

/-- **Rebuilding a contest** answers its rows as they are then. -/
theorem run_rebuild (contestId : Int) :
    (rebuild contestId).run w =
      (.ok (.commit (w.store.standings contestId) []),
        { w with store := w.store.rebuild contestId }) := by
  have hrun : (rebuild contestId).run w =
      (.ok (.commit (rowsOf (w.store.submissionsOf contestId)
        (w.store.judgings.filter (counting w.store contestId).admits)) []),
        { w with
          store := (((w.store.replaceStatistics contestId
            (rowsOf (w.store.submissionsOf contestId)
              (w.store.judgings.filter (counting w.store contestId).admits))).setJudgingsCounted
            (inactive w.store contestId) false).2.setJudgingsCounted
            (counting w.store contestId) true).2 }) := rfl
  rw [hrun, rowsOf_counting, setJudgingsCounted_rebuild]

end Standings

namespace Store

variable {s : Store}

/-- A judging that does not wait to be counted has the flag that a rebuild
gives it. -/
theorem Sound.reflagged_eq (h : s.Sound) {j : Judging} (hj : j ∈ s.judgings)
    (hcounted : j.active = true → j.lifecycle = .finalized → j.counted = true) :
    j.reflagged = j := by
  have hflag : j.reflagged.counted = j.counted := by
    rw [h.counted_reflagged hj, Bool.eq_iff_iff, Bool.and_eq_true, Judging.isFinalized_iff]
    exact ⟨fun hends => hcounted hends.1 hends.2, (h.ordered j hj).counted⟩
  change { j with counted := j.reflagged.counted } = j
  rw [hflag]

/-- **Rebuilding changes nothing** where every active judging that has ended is
counted. -/
theorem Sound.rebuild_eq (h : s.Sound) (hb : s.Balanced)
    (hcounted : ∀ j ∈ s.judgings, j.active = true → j.lifecycle = .finalized → j.counted = true)
    (contestId : Int) :
    (s.rebuild contestId).judgings = s.judgings ∧
      ∀ k, (s.rebuild contestId).statistics.counters k = s.statistics.counters k := by
  have hjud : (s.rebuild contestId).judgings = s.judgings := by
    rw [judgings_rebuild]
    exact Table.update_eq_self fun j hj _ => h.reflagged_eq hj (hcounted j hj)
  refine ⟨hjud, fun k => ?_⟩
  -- the rebuilt ledger is balanced too, and its flags are those of before
  have hbalanced := h.balanced_rebuild hb contestId k
  rw [hbalanced, hb k]
  exact tally_congr hjud fun _ => rfl

end Store

end JudgeQueue
