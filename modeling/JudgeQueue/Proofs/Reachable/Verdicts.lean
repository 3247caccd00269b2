import JudgeQueue.Proofs.Graded.Keeps
import JudgeQueue.Proofs.Reachable.Basic
/-!
# Reachable worlds — verdicts

A judging is ended by comparing two numbers, but what its verdict promises is
about single testcases: each has been run once, and an accepted judging has no
run that failed. The promise holds of the testcases that a problem has now,
also after some have been removed. Solutions of the jury are graded in full
through every kind of requeueing and rejudging.
-/

namespace JudgeQueue

namespace Store

/-- Every testcase of the submission's problem has just one run within the
judging. -/
def RunOnce (s : Store) (j : Judging) (r : Submission) : Prop :=
  ∀ t ∈ s.testcases, t.problemId = r.problemId →
    ∃! n, n ∈ s.runs ∧ n.judgingId = j.id ∧ n.testcaseId = t.id

variable {s s' : Store} {rows : Seed}

/-- Where no run is missing, none is there twice. -/
theorem Filed.runOnce (h : s.Filed) {j : Judging} {r : Submission} (hr : r ∈ s.submissions)
    (hsub : r.id = j.submissionId) (hall : s.AllRun j) : s.RunOnce j r := by
  intro t ht hproblem
  have hon : s.IsGradedOn j t := by
    refine ⟨ht, ?_⟩
    rw [← hsub, problemOf_eq hr, hproblem]
  obtain ⟨n, hn, hid, htest⟩ := hall t hon
  refine ⟨n, ⟨hn, hid, htest⟩, ?_⟩
  rintro m ⟨hm, hmid, hmtest⟩
  exact h.run_eq m hm n hn (hmid.trans hid.symm) (hmtest.trans htest.symm)

/-- Supplied rows hold neither judgings nor runs. -/
theorem graded_seed : (({} : Store).seed rows).Graded := by
  have hjudging : ∀ j, ¬ j ∈ (({} : Store).seed rows).judgings := fun _ => Table.not_mem_empty
  have hrun : ∀ n, ¬ n ∈ (({} : Store).seed rows).runs := fun _ => Table.not_mem_empty
  exact ⟨⟨fun n hn => absurd hn (hrun n), fun n hn => absurd hn (hrun n),
    fun n hn => absurd hn (hrun n)⟩, fun j hj => absurd hj (hjudging j)⟩

/-- Every trace keeps a sound store graded. -/
theorem Sound.graded_trace {now : Instant} {es : List Event} (hs : s.Sound) (hg : s.Graded)
    (ht : Trace now s es s') : s'.Graded := by
  have hkeep := ht.keeps (P := fun s => s.Sound ∧ s.Graded)
    (fun hc h => ⟨h.1.change hc, h.1.graded_change h.2 hc⟩) ⟨hs, hg⟩
  exact hkeep.2

end Store

namespace World

variable {w w' : World}

/-- Requests keep the store graded. -/
theorem Steps.graded (h : w.Steps w') (hs : w.store.Sound) (hg : w.store.Graded) :
    w'.store.Graded := by
  induction h with
  | refl => exact hg
  | perform h op ctx ih =>
    have hsound := h.sound hs
    exact hsound.graded_trace ih (perform_trace op ctx hsound)

/-- **Stores are graded** that arise from supplied rows. -/
theorem Arises.graded (h : w.Arises) : w.store.Graded := by
  obtain ⟨rows, blobs, hw⟩ := h
  exact hw.graded Store.sound_seed Store.graded_seed

theorem Reachable.graded (h : w.Reachable) : w.store.Graded :=
  h.arises.graded

/-- **Accepted means all accepted.** A judging that ended accepted has one run
of every testcase of its problem, and all its runs are accepted. One that is
graded in full has one run of every testcase, unless it did not compile or was
abandoned, and this is how solutions of the jury are graded. -/
theorem runOnce_of_ended (h : w.Arises) {j : Judging} (hj : j ∈ w.store.judgings) :
    ∃ r ∈ w.store.submissions, r.id = j.submissionId ∧
      (j.lifecycle = .finalized → j.verdict = some .accepted →
        w.store.RunOnce j r ∧ ∀ n ∈ w.store.runs, n.judgingId = j.id → n.verdict = .accepted) ∧
      (j.lifecycle = .finalized → j.fullTest = true → j.verdict ≠ some .compileError →
        j.verdict ≠ some .undefinedError → w.store.RunOnce j r) ∧
      (r.expectedResult ≠ none → j.fullTest = true) := by
  obtain ⟨r, hr, hsub⟩ := h.sound.numbered.owned j hj
  have hg := h.graded
  have hrated : w.store.Rated j := hg.rated j hj
  refine ⟨r, hr, hsub, fun hl hv => ?accepted, fun hl hfull hce hue => ?full, fun hne => ?jury⟩
  case accepted =>
    obtain ⟨hnot, hall⟩ := hrated.accepted hl hv
    refine ⟨hg.filed.runOnce hr hsub hall, fun n hn hid => ?_⟩
    by_contra hfailed
    exact hnot ⟨n, hn, hid, hfailed⟩
  case full => exact hg.filed.runOnce hr hsub (hrated.full hl hfull hce hue)
  case jury =>
    have hjury : w.store.isJury j.submissionId = true := by
      rw [← hsub, Store.isJury_eq hr, Submission.requiresFullTest]
      exact Option.isSome_iff_ne_none.mpr hne
    exact hrated.jury hjury

/-! ## A small exam

Two problems, the second with a single testcase. The jury has a solution of
each that is to fail, and a team has one of the second. A judgehost holds all
three judgings and ends those of the second problem: the solution of the jury
fails, the team is accepted. -/

/-- The rows of the exam. Of the first problem the first testcase is graded
last. -/
def examRows : Seed where
  problems :=
    [⟨1, "sum", 1, none, none, none, none, true⟩, ⟨2, "product", 1, none, none, none, none, true⟩]
  languages := [⟨"c", "C", "script", 1, true⟩]
  executables := [⟨"script", "", ""⟩]
  testcases :=
    [⟨1, 1, 2, 1, none, "", ""⟩, ⟨2, 1, 1, 1, none, "", ""⟩, ⟨3, 1, 1, 1, none, "", ""⟩,
     ⟨4, 2, 1, 1, none, "", ""⟩]
  submissions :=
    [⟨1, 1, 1, 2, "c", ⟨0, false⟩, some .wrongAnswer, false, none⟩,
     ⟨2, 1, 2, 2, "c", ⟨0, false⟩, none, false, none⟩,
     ⟨3, 1, 1, 1, "c", ⟨0, false⟩, some .wrongAnswer, false, none⟩]

/-- A judgehost holds the judgings of all solutions. -/
def examClaimed : World :=
  (((((((seeded examRows (.memory [])).after (.enqueue 1)).after (.enqueue 2)).after
    (.enqueue 3)).after (.register "host")).after (.claimJudging "host")).after
    (.claimJudging "host")).after (.claimJudging "host")

theorem reachable_examClaimed : examClaimed.Reachable := by
  have hfree : ∀ r ∈ examRows.submissions, r.rejudgingId = none := by decide
  have hseeded : (seeded examRows (.memory [])).Reachable := ⟨_, _, hfree, .refl⟩
  exact ((((((hseeded.after _).after _).after _).after _).after _).after _).after _

/-- The judgings of the second problem have ended. -/
def examEnded : World :=
  (examClaimed.after (.reportRuns "host" 1 [⟨4, .wrongAnswer, 0, 0, []⟩])).after
    (.reportRuns "host" 2 [⟨4, .accepted, 0, 0, []⟩])

theorem reachable_examEnded : examEnded.Reachable :=
  (reachable_examClaimed.after _).after _

/-- In the small exam the judging of the team is accepted, with all its runs,
and that of the jury has failed with a run of every testcase. -/
theorem runOnce_examEnded :
    examEnded.Arises ∧
      (∃ j ∈ examEnded.store.judgings, j.verdict = some .accepted ∧
        ∃ r ∈ examEnded.store.submissions, r.id = j.submissionId ∧ r.id = 2 ∧
          examEnded.store.RunOnce j r ∧
          ∀ n ∈ examEnded.store.runs, n.judgingId = j.id → n.verdict = .accepted) ∧
      ∃ j ∈ examEnded.store.judgings, j.verdict = some .wrongAnswer ∧
        ∃ r ∈ examEnded.store.submissions, r.id = j.submissionId ∧ r.id = 1 ∧
          examEnded.store.RunOnce j r := by
  have harises := reachable_examEnded.arises
  have hteam : ∃ j ∈ examEnded.store.judgings.rows,
      j.submissionId = 2 ∧ j.lifecycle = .finalized ∧ j.verdict = some .accepted := by
    decide +kernel
  have hjury : ∃ j ∈ examEnded.store.judgings.rows, j.submissionId = 1 ∧
      j.lifecycle = .finalized ∧ j.fullTest = true ∧ j.verdict = some .wrongAnswer := by
    decide +kernel
  obtain ⟨i, hi, hisub, hil, hiv⟩ := hteam
  obtain ⟨j, hj, hjsub, hjl, hfull, hjv⟩ := hjury
  obtain ⟨p, hp, hpsub, haccepted, -, -⟩ := runOnce_of_ended harises hi
  obtain ⟨r, hr, hrsub, -, hended, -⟩ := runOnce_of_ended harises hj
  obtain ⟨honce, hall⟩ := haccepted hil hiv
  refine ⟨harises, ⟨i, hi, hiv, p, hp, hpsub, hpsub.trans hisub, honce, hall⟩, j, hj, hjv, r, hr,
    hrsub, hrsub.trans hjsub, ?_⟩
  exact hended hjl hfull (by rw [hjv]; decide) (by rw [hjv]; decide)

end World

end JudgeQueue
