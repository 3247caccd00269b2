import JudgeQueue.Proofs.Ledger.Rebuild
import JudgeQueue.Proofs.Reachable.Basic
/-!
# Worlds that have drifted

No request makes the counters and the flags drift apart, but a store that is
handed over may have been changed otherwise. A rebuild repairs a contest
whatever its counters say, and whichever of its judgings that have ended are
flagged. What follows finds nothing left to repair.
-/

namespace JudgeQueue

namespace World

variable {w : World}

/-- **A rebuild repairs a contest** of any world in which only judgings that
have ended are flagged. It answers the rows of the contest as they are then, a
second rebuild changes nothing, and neither does counting any judging of the
contest. -/
theorem rebuildStatistics_repairs
    (h : ∀ j ∈ w.store.judgings, j.counted = true → j.lifecycle = .finalized) (contestId : Int)
    {ctx : Context} (hfaults : ctx.faults = .none) :
    ∃ rows w', (Operation.rebuildStatistics contestId).perform ctx w = ⟨.ok rows, w', []⟩ ∧
      w.store.Repairs contestId w'.store ∧ w'.blobs = w.blobs ∧
      rows = w'.store.statistics.filter (fun row => row.contestId = contestId) ∧
      ∀ later : Context, later.faults = .none →
        (Operation.getStatistics contestId).perform later w' = ⟨.ok rows, w', []⟩ ∧
        (Operation.rebuildStatistics contestId).perform later w' = ⟨.ok rows, w', []⟩ ∧
        ∀ j ∈ w'.store.judgings, w'.store.isOf contestId j.submissionId = true →
          (Operation.judgingFinished j.id).perform later w' = ⟨.ok none, w', []⟩ := by
  have hrows : w.store.standings contestId =
      (w.store.rebuild contestId).statistics.filter fun row => row.contestId = contestId :=
    Store.filter_rebuild.symm
  refine ⟨w.store.standings contestId, { w with store := w.store.rebuild contestId },
    transact_run hfaults (Standings.run_rebuild contestId), Store.repairs_rebuild h contestId, rfl,
    hrows, fun later hlater => ⟨?get, ?again, ?count⟩⟩
  case get =>
    rw [hrows]
    exact transact_run hlater rfl
  case again =>
    have hagain := transact_run hlater
      (Standings.run_rebuild (w := { w with store := w.store.rebuild contestId }) contestId)
    rw [Store.standings_rebuild, Store.rebuild_rebuild] at hagain
    exact hagain
  case count =>
    intro j hj hof
    refine transact_run hlater (Standings.run_judgingFinished_of_counted ?_)
    intro i hi hid hactive hl
    obtain rfl := Store.judging_eq hi hj hid
    have hflag := Store.reflagged_of_mem_rebuild hi hof
    rw [← hflag] at hactive hl ⊢
    exact Judging.counted_reflagged_of_ended hactive hl

/-! ## The small contest -/

/-- The small contest with wrong counters, a row too many, a row of another
contest and no flags. -/
def contestDrifted : World :=
  { contestCounted with
    store :=
      { contestCounted.store with
        statistics := .ofList [⟨1, 1, 1, 7, 9⟩, ⟨1, 5, 1, 1, 0⟩, ⟨2, 1, 1, 3, 3⟩]
        judgings := contestCounted.store.judgings.update (fun _ => true)
          ({ · with counted := false }) fun _ => rfl } }

/-- A rebuild of the small contest corrects the row, drops the other, keeps
that of the other contest and flags both judgings; and then counting the first
of them changes nothing. -/
theorem repairs_contestDrifted :
    (∀ j ∈ contestDrifted.store.judgings, j.counted = true → j.lifecycle = .finalized) ∧
    contestContext.faults = .none ∧
    ∃ w', (Operation.rebuildStatistics 1).perform contestContext contestDrifted =
        ⟨.ok [⟨1, 1, 1, 2, 1⟩], w', []⟩ ∧
      contestDrifted.store.Repairs 1 w'.store ∧
      w'.store.statistics.rows = [⟨1, 1, 1, 2, 1⟩, ⟨2, 1, 1, 3, 3⟩] ∧
      w'.store.judgings.rows.map Judging.counted = [true, true] ∧
      (Operation.judgingFinished 1).perform contestContext w' = ⟨.ok none, w', []⟩ := by
  have hflags : ∀ j ∈ contestDrifted.store.judgings,
      j.counted = true → j.lifecycle = .finalized := by
    have hrows : ∀ j ∈ contestDrifted.store.judgings.rows, j.counted = false := by decide +kernel
    intro j hj hcounted
    rw [hrows j hj] at hcounted
    cases hcounted
  have hfaults : contestContext.faults = .none := rfl
  have hanswer : ((Operation.rebuildStatistics 1).perform contestContext
      contestDrifted).answer.toOption = some [⟨1, 1, 1, 2, 1⟩] := by decide +kernel
  have hafter : (contestDrifted.after (.rebuildStatistics 1)).store.statistics.rows =
        [⟨1, 1, 1, 2, 1⟩, ⟨2, 1, 1, 3, 3⟩] ∧
      (contestDrifted.after (.rebuildStatistics 1)).store.judgings.rows.map Judging.counted =
        [true, true] ∧
      ∃ j ∈ (contestDrifted.after (.rebuildStatistics 1)).store.judgings.rows, j.id = 1 ∧
        (contestDrifted.after (.rebuildStatistics 1)).store.isOf 1 j.submissionId = true := by
    decide +kernel
  obtain ⟨rows, w', hperform, hrepairs, -, -, hlater⟩ :=
    rebuildStatistics_repairs hflags 1 hfaults
  have hworld : contestDrifted.after (.rebuildStatistics 1) = w' := congrArg Outcome.world hperform
  rw [hperform] at hanswer
  obtain rfl : rows = [⟨1, 1, 1, 2, 1⟩] := Option.some.inj hanswer
  rw [hworld] at hafter
  obtain ⟨hrows, hcounted, j, hj, hid, hof⟩ := hafter
  exact ⟨hflags, hfaults, w', hperform, hrepairs, hrows, hcounted,
    hid ▸ (hlater contestContext rfl).2.2 j hj hof⟩

end World

end JudgeQueue
