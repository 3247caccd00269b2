import JudgeQueue.Proofs.Grading.Batch
import JudgeQueue.Proofs.Reachable.Verdicts
/-!
# Reachable worlds — a report of runs

A judgehost that holds a judging reports runs in batches of any length, and may
repeat itself within a batch and across batches. What counts are the runs that
the judging has in the end: the batch adds those that were missing and ends the
judging as soon as all of them decide it.
-/

namespace JudgeQueue

namespace World

variable {w : World}

/-- **A report of runs grades the judging** that its judgehost holds, as soon as
the output of the runs that it adds is taken. It records the first report of
each testcase that had no run, answers the judging as it is then, and tells of
its end. -/
theorem reportRuns_gradesBatch (h : w.Arises) {ctx : Context} (hfaults : ctx.faults = .none)
    {host : Judgehost} (hhost : host ∈ w.store.judgehosts) (hactive : host.active = true)
    {j : Judging} (hj : j ∈ w.store.judgings) (hheld : j.isClaimedBy host.hostname = true)
    {r : Submission} (hr : r ∈ w.store.submissions) (hsub : j.submissionId = r.id)
    {reports : List RunReport} (hverdict : ∀ p ∈ reports, p.verdict.isRunVerdict = true)
    (hknown : ∀ p ∈ reports, ∃ t ∈ w.store.testcasesOf r.problemId, t.id = p.testcaseId) :
    ∃ recorded, Grading.Picks (w.store.runsOf j.id) reports recorded ∧
      ∀ b, w.blobs.putAll (Grading.outputEntries j.id w.store.lastRun recorded) = .ok b →
        ∃ j' s', (Operation.reportRuns host.hostname j.id reports).perform ctx w =
            ⟨.ok (some j'), ⟨s', b⟩,
              if j'.isFinalized then [.judgingFinished j.id j.submissionId] else []⟩ ∧
          (w.store.touchJudgehost host.hostname ctx.now).GradesBatch s' j j' r.problemId recorded
            ctx.now := by
  have hpicks := Grading.picks_fresh (w.store.runsOf j.id) reports
  generalize hrecorded : Grading.fresh ((w.store.runsOf j.id).map Run.testcaseId) reports =
    recorded at hpicks
  refine ⟨recorded, hpicks, fun b hput => ?_⟩
  have hclaimed : j.lifecycle = .claimed := Judging.lifecycle_of_isClaimedBy hheld
  -- the judgehost is heard of first, which leaves the store sound and graded
  have hheard : Change ctx.now w.store [] _ := .touchJudgehost host.hostname
  have hbatch : (w.store.touchJudgehost host.hostname ctx.now).IsBatch j r recorded := by
    have hfresh : ∀ p ∈ recorded, p ∈ reports ∧
        p.testcaseId ∉ (w.store.runsOf j.id).map Run.testcaseId :=
      fun p hp => Grading.mem_of_mem_fresh (hrecorded ▸ hp)
    refine ⟨hj, hclaimed, hr, hsub, fun p hp => hverdict p (hfresh p hp).1,
      fun p hp => hknown p (hfresh p hp).1, fun p hp n hn hid => ?_,
      hrecorded ▸ Grading.nodup_fresh _ reports⟩
    exact (hfresh p hp).2 (hid ▸ List.mem_map_of_mem hn)
  have hrecords := hbatch.gradesBatch (h.sound.change hheard)
    (h.sound.graded_change h.graded hheard) ctx.now
  have hrun := Grading.run_reportRuns hhost hactive hj hheld hr hsub hverdict hknown hrecorded hput
    ctx.now
  rw [Grading.told_eq hclaimed (Grading.fragment recorded) ctx.now] at hrun
  exact ⟨_, _, transact_run hfaults hrun, hrecords⟩

/-! ## The small exam -/

/-- Reports of all testcases of the first problem, of which one is repeated. -/
def examReports : List RunReport :=
  [⟨1, .accepted, 0, 30, [(.run, [1])]⟩, ⟨3, .timeLimitExceeded, 0, 20, []⟩,
   ⟨1, .wrongAnswer, 0, 40, []⟩, ⟨2, .accepted, 0, 20, []⟩]

/-- These reports end the judging of the jury's solution of the first problem.
It is graded in full, so that it is the last of them that ends it. -/
theorem gradesBatch_examClaimed :
    examClaimed.Reachable ∧
    ∃ j ∈ examClaimed.store.judgings, j.fullTest = true ∧ ∃ recorded j' s' b,
      Grading.Picks (examClaimed.store.runsOf j.id) examReports recorded ∧
      recorded.map RunReport.testcaseId = [1, 3, 2] ∧
      (Operation.reportRuns "host" j.id examReports).perform contestContext examClaimed =
        ⟨.ok (some j'), ⟨s', b⟩, [.judgingFinished j.id j.submissionId]⟩ ∧
      (examClaimed.store.touchJudgehost "host" contestContext.now).GradesBatch s' j j' 1 recorded
        contestContext.now := by
  have hfaults : contestContext.faults = .none := rfl
  have hhost : ∃ h ∈ examClaimed.store.judgehosts.rows, h.hostname = "host" ∧ h.active = true := by
    decide +kernel
  have hjudging : ∃ j ∈ examClaimed.store.judgings.rows, j.submissionId = 3 ∧ j.fullTest = true ∧
      j.isClaimedBy "host" = true ∧
      (examClaimed.store.runsOf j.id).map Run.testcaseId = [] := by decide +kernel
  have hsubmission : ∃ r ∈ examClaimed.store.submissions.rows, r.id = 3 ∧ r.problemId = 1 := by
    decide +kernel
  have hknown : ∀ p ∈ examReports, ∃ t ∈ examClaimed.store.testcases.rows,
      t.problemId = 1 ∧ t.id = p.testcaseId := by decide +kernel
  have hlisted : ∀ t ∈ examClaimed.store.testcases.rows, t.problemId = 1 → t.id ∈ [1, 3, 2] := by
    decide +kernel
  have hverdict : ∀ p ∈ examReports, p.verdict.isRunVerdict = true := by decide
  have hblobs : examClaimed.blobs.TakesAll := Blobs.takesAll_of_count? (by decide +kernel)
  obtain ⟨host, hhost, hname, hactive⟩ := hhost
  obtain ⟨j, hj, hsub, hfull, hheld, hnone⟩ := hjudging
  obtain ⟨r, hr, hrid, hproblem⟩ := hsubmission
  have htestcases : ∀ p ∈ examReports,
      ∃ t ∈ examClaimed.store.testcasesOf r.problemId, t.id = p.testcaseId := by
    intro p hp
    obtain ⟨t, ht, htproblem, hid⟩ := hknown p hp
    exact ⟨t, Store.mem_testcasesOf.mpr ⟨ht, htproblem.trans hproblem.symm⟩, hid⟩
  obtain ⟨recorded, hpicks, hgrades⟩ := reportRuns_gradesBatch reachable_examClaimed.arises
    hfaults hhost hactive hj (hname ▸ hheld) hr (hsub.trans hrid.symm) hverdict
    htestcases
  obtain ⟨b, hput⟩ := hblobs (Grading.outputEntries j.id examClaimed.store.lastRun recorded)
  obtain ⟨j', s', hperform, hrecords⟩ := hgrades b hput
  rw [hname] at hperform hrecords
  rw [hproblem] at hrecords
  have hnew : recorded.map RunReport.testcaseId = [1, 3, 2] := by
    rw [hpicks.testcases, hnone]
    decide
  -- the testcases are all there are of the problem
  have hdecided : s'.IsDecided j := by
    have hgradedOn : ∀ t, s'.IsGradedOn j t ↔
        t ∈ examClaimed.store.testcases ∧ t.problemId = 1 := by
      intro t
      have hfound : s'.problemOf j.submissionId = some 1 := by
        rw [hrecords.frame, hsub, ← hrid, ← hproblem]
        exact Store.problemOf_eq hr
      rw [Store.IsGradedOn, hfound, Option.some.injEq, eq_comm, hrecords.frame]
      exact Iff.rfl
    obtain ⟨t, ht, htproblem, -⟩ := hknown _ List.mem_cons_self
    refine .inr ⟨⟨t, (hgradedOn t).mpr ⟨ht, htproblem⟩⟩, fun t ht => ?_⟩
    obtain ⟨ht, htproblem⟩ := (hgradedOn t).mp ht
    obtain ⟨p, hp, hid⟩ := List.mem_map.mp (hnew ▸ hlisted t ht htproblem)
    obtain ⟨n, hn, hjudging, htestcase, -⟩ := hrecords.exists_run hp
    exact ⟨n, hn, hjudging, htestcase.trans hid⟩
  have hfin : j'.isFinalized = true := Judging.isFinalized_iff.mpr (hrecords.ends_iff.mpr hdecided)
  rw [hfin, if_pos rfl] at hperform
  exact ⟨reachable_examClaimed, j, hj, hfull, recorded, j', s', b, hpicks, hnew, hperform, hrecords⟩

end World

end JudgeQueue
