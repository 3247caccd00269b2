import JudgeQueue.Proofs.Grading.Complete
import JudgeQueue.Proofs.Sound.Basic
/-!
# Graded stores

What the runs of a judging say about it. A run is filed under a judging that
has been handed out and a testcase that this one is graded on, and no testcase
is run twice. So the runs decide a judging exactly if the numbers by which it
is ended say so. A judging that a judgehost holds is not decided yet; one that
has been accepted has an accepted run of every testcase, and one that is graded
in full has a run of every testcase, whatever they came to.
-/

namespace JudgeQueue

namespace Store

/-- The problem of a submission that is found. -/
def problemOf (s : Store) (submissionId : Int) : Option Int :=
  (s.submissions.find? submissionId).map Submission.problemId

/-- Whether a submission that is found asks for grading in full. -/
def isJury (s : Store) (submissionId : Int) : Bool :=
  (s.submissions.find? submissionId).any Submission.requiresFullTest

/-- A judging is graded on the testcases of its submission's problem. -/
def IsGradedOn (s : Store) (j : Judging) (t : Testcase) : Prop :=
  t ∈ s.testcases ∧ s.problemOf j.submissionId = some t.problemId

/-- A run of the judging has failed. -/
def Failed (s : Store) (j : Judging) : Prop :=
  ∃ n ∈ s.runs, n.judgingId = j.id ∧ n.verdict ≠ .accepted

/-- Every testcase that the judging is graded on has a run. -/
def AllRun (s : Store) (j : Judging) : Prop :=
  ∀ t, s.IsGradedOn j t → ∃ n ∈ s.runs, n.judgingId = j.id ∧ n.testcaseId = t.id

/-- The runs of the judging decide it: one has failed and it is not graded in
full, or there are testcases and all of them have been run. -/
def IsDecided (s : Store) (j : Judging) : Prop :=
  j.fullTest = false ∧ s.Failed j ∨ (∃ t, s.IsGradedOn j t) ∧ s.AllRun j

/-- Every run is filed under a judging that has been handed out and under a
testcase that this is graded on, no two under the same. -/
structure Filed (s : Store) : Prop where
  run_le : ∀ n ∈ s.runs, n.id ≤ s.lastRun
  judging : ∀ n ∈ s.runs, ∃ j ∈ s.judgings, j.id = n.judgingId ∧ j.lifecycle ≠ .queued ∧
    ∃ t, s.IsGradedOn j t ∧ t.id = n.testcaseId
  run_eq : ∀ m ∈ s.runs, ∀ n ∈ s.runs, m.judgingId = n.judgingId → m.testcaseId = n.testcaseId →
    m = n

/-- The judging stands as its runs say. While it is held they do not decide
it; once it is accepted none has failed and none is missing. A judging that is
graded in full ends with all runs, unless it does not compile or is abandoned,
and a solution of the jury is graded in full. -/
structure Rated (s : Store) (j : Judging) : Prop where
  undecided : j.lifecycle = .claimed → ¬ s.IsDecided j
  accepted : j.lifecycle = .finalized → j.verdict = some .accepted → ¬ s.Failed j ∧ s.AllRun j
  full : j.lifecycle = .finalized → j.fullTest = true → j.verdict ≠ some .compileError →
    j.verdict ≠ some .undefinedError → s.AllRun j
  jury : s.isJury j.submissionId = true → j.fullTest = true

/-- All runs are filed, and all judgings stand as their runs say. -/
structure Graded (s : Store) : Prop where
  filed : s.Filed
  rated : ∀ j ∈ s.judgings, s.Rated j

/-- The runs of a judging in one store say of it what those of a judging in
another store say of that. -/
structure SameGrade (s : Store) (j : Judging) (s' : Store) (j' : Judging) : Prop where
  failed : s'.Failed j' ↔ s.Failed j
  allRun : s'.AllRun j' ↔ s.AllRun j
  isDecided : s'.IsDecided j' ↔ s.IsDecided j

variable {s s' : Store} {j j' : Judging}

/-! ## Rows -/

theorem mem_runsOf {id : Int} {n : Run} : n ∈ s.runsOf id ↔ n ∈ s.runs ∧ n.judgingId = id := by
  rw [runsOf, Table.mem_filter, decide_eq_true_iff]

/-- Runs are listed in the order of their ids. -/
theorem runsOf_ascending (s : Store) (id : Int) :
    ((s.runsOf id).map Run.id).Pairwise (· < ·) := by
  rw [List.pairwise_map]
  exact (s.runs.ascending.filter _).imp Std.compare_eq_lt.mp

theorem mem_testcasesOf {id : Int} {t : Testcase} :
    t ∈ s.testcasesOf id ↔ t ∈ s.testcases ∧ t.problemId = id := by
  rw [testcasesOf, List.mem_mergeSort, Table.mem_filter, decide_eq_true_iff]

theorem problemOf_eq {r : Submission} (hr : r ∈ s.submissions) :
    s.problemOf r.id = some r.problemId := by
  have hfind : s.submissions.find? r.id = some r := Table.find?_key hr
  rw [problemOf, hfind, Option.map_some]

theorem isJury_eq {r : Submission} (hr : r ∈ s.submissions) :
    s.isJury r.id = r.requiresFullTest := by
  have hfind : s.submissions.find? r.id = some r := Table.find?_key hr
  rw [isJury, hfind, Option.any_some]

/-- The testcases that a judging is graded on are those of the problem. -/
theorem isGradedOn_iff {r : Submission} (hr : r ∈ s.submissions)
    (hsub : j.submissionId = r.id) {t : Testcase} :
    s.IsGradedOn j t ↔ t ∈ s.testcasesOf r.problemId := by
  rw [IsGradedOn, hsub, problemOf_eq hr, mem_testcasesOf, Option.some.injEq, eq_comm]

/-- The runs that have failed are among those of the judging. -/
theorem failed_iff : s.Failed j ↔ ∃ n ∈ s.runsOf j.id, n.verdict ≠ .accepted := by
  simp only [Failed, mem_runsOf, and_assoc]

theorem allRun_iff {r : Submission} (hr : r ∈ s.submissions)
    (hsub : j.submissionId = r.id) :
    s.AllRun j ↔ ∀ t ∈ s.testcasesOf r.problemId, ∃ n ∈ s.runsOf j.id, n.testcaseId = t.id := by
  simp only [AllRun, isGradedOn_iff hr hsub, mem_runsOf, and_assoc]

/-- The ids of a problem's testcases do not repeat. -/
theorem nodup_testcasesOf (s : Store) (id : Int) : ((s.testcasesOf id).map Testcase.id).Nodup := by
  have hperm := (List.mergeSort_perm (s.testcases.filter fun t => t.problemId = id)
    Testcase.before).map Testcase.id
  exact hperm.nodup_iff.mpr (s.testcases.nodup_keys.sublist (List.filter_sublist.map _))

/-! ## What decides a judging -/

namespace Filed

/-- The runs of a judging are of testcases that it is graded on, and of each
at most once. -/
theorem covers (h : s.Filed) (hg : s.RunsGraded) (hj : j ∈ s.judgings)
    {r : Submission} (hr : r ∈ s.submissions) (hsub : j.submissionId = r.id) :
    Summary.Covers (s.runsOf j.id) (s.testcasesOf r.problemId) where
  known n hn := by
    obtain ⟨hmem, hid⟩ := mem_runsOf.mp hn
    obtain ⟨i, hi, hin, -, t, ht, htn⟩ := h.judging n hmem
    rw [judging_eq hi hj (hin.trans hid), isGradedOn_iff hr hsub] at ht
    exact ⟨t, ht, htn⟩
  nodup := by
    have hrows : (s.runsOf j.id).Nodup := (List.Nodup.of_map _ s.runs.nodup_keys).filter _
    refine hrows.map_on fun m hm n hn => ?_
    obtain ⟨hm, hmid⟩ := mem_runsOf.mp hm
    obtain ⟨hn, hnid⟩ := mem_runsOf.mp hn
    exact h.run_eq m hm n hn (hmid.trans hnid.symm)
  nodup_testcases := s.nodup_testcasesOf r.problemId
  graded n hn := hg n (mem_runsOf.mp hn).1

/-- **The numbers by which a judging is ended tell whether its runs decide
it.** -/
theorem isComplete_iff (h : s.Filed) (hg : s.RunsGraded) (hj : j ∈ s.judgings)
    {r : Submission} (hr : r ∈ s.submissions) (hsub : j.submissionId = r.id) :
    (Summary.ofRuns (s.runsOf j.id) (s.testcasesOf r.problemId)).isComplete j.fullTest
      (s.testcasesOf r.problemId).length = true ↔ s.IsDecided j := by
  have hany : s.testcasesOf r.problemId ≠ [] ↔ ∃ t, s.IsGradedOn j t := by
    rw [← List.length_pos_iff, List.length_pos_iff_exists_mem]
    simp only [isGradedOn_iff hr hsub]
  rw [(h.covers hg hj hr hsub).isComplete_iff, IsDecided, failed_iff, allRun_iff hr hsub, hany]

/-- A judging that waits in the queue has no runs. -/
theorem lifecycle_ne_queued (h : s.Filed) (hj : j ∈ s.judgings) {n : Run}
    (hn : n ∈ s.runs) (hid : n.judgingId = j.id) : j.lifecycle ≠ .queued := by
  obtain ⟨i, hi, hin, hl, -⟩ := h.judging n hn
  rwa [judging_eq hi hj (hin.trans hid)] at hl

/-- So it is not decided. -/
theorem not_isDecided_of_queued (h : s.Filed) (hj : j ∈ s.judgings)
    (hl : j.lifecycle = .queued) : ¬ s.IsDecided j := by
  rintro (⟨-, n, hn, hid, -⟩ | ⟨⟨t, ht⟩, hall⟩)
  · exact h.lifecycle_ne_queued hj hn hid hl
  · obtain ⟨n, hn, hid, -⟩ := hall t ht
    exact h.lifecycle_ne_queued hj hn hid hl

end Filed

/-! ## What a judging stands for -/

/-- Judgings stand the same with the same runs of the same testcases. -/
theorem SameGrade.of_runs (hid : j'.id = j.id) (hfull : j'.fullTest = j.fullTest)
    (hruns : ∀ n : Run, n.judgingId = j.id → (n ∈ s'.runs ↔ n ∈ s.runs))
    (ht : ∀ t, s'.IsGradedOn j' t ↔ s.IsGradedOn j t) : s.SameGrade j s' j' := by
  have hfailed : s'.Failed j' ↔ s.Failed j := by
    rw [Failed, Failed, hid]
    exact exists_congr fun n => and_congr_left fun hn => hruns n hn.1
  have hall : s'.AllRun j' ↔ s.AllRun j := by
    rw [AllRun, AllRun, hid]
    exact forall_congr' fun t => imp_congr (ht t) (exists_congr fun n =>
      and_congr_left fun hn => hruns n hn.1)
  refine ⟨hfailed, hall, ?_⟩
  rw [IsDecided, IsDecided, hfull, hfailed, hall, exists_congr ht]

/-- A judging that is not touched stands as it did. -/
theorem Rated.of_sameGrade (h : s.Rated j) (hsame : s.SameGrade j s' j)
    (hjury : s'.isJury j.submissionId = s.isJury j.submissionId) : s'.Rated j where
  undecided hl := by
    rw [hsame.isDecided]
    exact h.undecided hl
  accepted hl hv := by
    rw [hsame.failed, hsame.allRun]
    exact h.accepted hl hv
  full hl hfull hce hue := by
    rw [hsame.allRun]
    exact h.full hl hfull hce hue
  jury := by
    rw [hjury]
    exact h.jury

end Store

end JudgeQueue
