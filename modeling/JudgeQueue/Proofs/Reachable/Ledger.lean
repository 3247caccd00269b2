import JudgeQueue.Proofs.Ledger.Owners
import JudgeQueue.Proofs.Reachable.Basic
/-!
# Reachable worlds — the statistics

The counters of a key tell how many of its submissions have been judged and
how many of them solved the problem, whatever requests have led to the
world. Only judgings that speak for their submission are counted, each
submission for one of them.
-/

namespace JudgeQueue

namespace World

/-- **The statistics count submissions.** At every key the first counter is
the number of submissions that own a counted judging, and the second the
number of those whose counted judging was accepted. A counted judging is
active and has ended with a result, and no submission owns two of them. -/
theorem statistics_eq_owners {w : World} (h : w.Reachable) :
    (∀ k, (w.store.statistics.row k).totalSubmission = w.store.owners k Judging.counted ∧
      (w.store.statistics.row k).acceptedSubmission =
        w.store.owners k fun j => j.counted && decide (j.verdict = some .accepted)) ∧
    (∀ j ∈ w.store.judgings, j.counted = true →
      j.active = true ∧ j.lifecycle = .finalized ∧ j.HasResult) ∧
    (∀ i ∈ w.store.judgings, ∀ j ∈ w.store.judgings, i.counted = true → j.counted = true →
      i.submissionId = j.submissionId → i = j) ∧
    ∀ k, 0 ≤ (w.store.statistics.row k).acceptedSubmission ∧
      (w.store.statistics.row k).acceptedSubmission ≤
        (w.store.statistics.row k).totalSubmission := by
  have hs := h.sound
  have hcounters : ∀ k, (w.store.statistics.row k).counters = w.store.tally k := h.balanced
  have htotal : ∀ k, (w.store.statistics.row k).totalSubmission =
      w.store.owners k Judging.counted := fun k => by
    have hk := (hcounters k).trans hs.tally_eq
    exact congrArg Prod.fst hk
  have haccepted : ∀ k, (w.store.statistics.row k).acceptedSubmission =
      w.store.owners k fun j => j.counted && decide (j.verdict = some .accepted) := fun k => by
    have hk := (hcounters k).trans hs.tally_eq
    exact congrArg Prod.snd hk
  refine ⟨fun k => ⟨htotal k, haccepted k⟩, fun j hj hc => ?_, fun i hi j hj => hs.counted_eq hi hj,
    fun k => ?_⟩
  · obtain ⟨hact, hfin⟩ := (hs.ordered j hj).counted hc
    exact ⟨hact, hfin, hs.hasResult_of_active hj hact hfin⟩
  · have hle : w.store.owners k (fun j => j.counted && decide (j.verdict = some .accepted)) ≤
        w.store.owners k Judging.counted :=
      Store.owners_mono fun j hj => by
        rw [Bool.and_eq_true] at hj
        exact hj.1
    rw [htotal, haccepted]
    omega

/-- In the small contest two submissions are counted, one of them as
accepted. -/
theorem owners_contestCounted :
    contestCounted.Reachable ∧
      contestCounted.store.owners ⟨1, 1, 1⟩ Judging.counted = 2 ∧
      (contestCounted.store.owners ⟨1, 1, 1⟩ fun j =>
        j.counted && decide (j.verdict = some .accepted)) = 1 := by
  have hcount := (statistics_eq_owners reachable_contestCounted).1 ⟨1, 1, 1⟩
  have htotal : (contestCounted.store.statistics.row ⟨1, 1, 1⟩).totalSubmission = 2 := by
    decide +kernel
  have haccepted : (contestCounted.store.statistics.row ⟨1, 1, 1⟩).acceptedSubmission = 1 := by
    decide +kernel
  rw [htotal, haccepted] at hcount
  exact ⟨reachable_contestCounted, by omega, by omega⟩

end World

end JudgeQueue
