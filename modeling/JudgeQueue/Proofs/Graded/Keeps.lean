import JudgeQueue.Proofs.Graded.Moves
import JudgeQueue.Proofs.Trace.Grading
/-!
# Graded stores — what every change keeps

Two kinds of changes touch the runs. A batch files runs under the judging that
is reported on, and ends it if they decide it. A testcase is taken away with
its runs, which leaves a run of every testcase that is left; and since no
judging of the problem is held meanwhile, none is decided by it. Every change
keeps the store graded.
-/

namespace JudgeQueue

namespace Store

variable {s s' : Store}

/-! ## Runs that are recorded -/

theorem mem_runs_insertRun (hle : ∀ n ∈ s.runs, n.id ≤ s.lastRun) {new : NewRun} {n : Run} :
    n ∈ (s.insertRun new).2.runs ↔ n = new.recorded (s.lastRun + 1) ∨ n ∈ s.runs := by
  refine Table.mem_insert_of_fresh fun m hm => ?_
  have hid := hle m hm
  change m.id ≠ s.lastRun + 1
  omega

/-- The last id stays the last. -/
theorem run_le_insertRun (hle : ∀ n ∈ s.runs, n.id ≤ s.lastRun) (new : NewRun) :
    ∀ n ∈ (s.insertRun new).2.runs, n.id ≤ (s.insertRun new).2.lastRun := by
  intro n hn
  change n.id ≤ s.lastRun + 1
  rcases (mem_runs_insertRun hle).mp hn with rfl | hn
  · exact Int.le_refl _
  · have hid := hle n hn
    omega

/-- Recording runs of a judging leaves those of other judgings alone. -/
theorem mem_runs_recordRuns_of_ne (hle : ∀ n ∈ s.runs, n.id ≤ s.lastRun) {id : Int}
    {now : Instant} {reports : List RunReport} {n : Run} (hne : n.judgingId ≠ id) :
    n ∈ (s.recordRuns id now reports).runs ↔ n ∈ s.runs := by
  induction reports generalizing s with
  | nil => exact Iff.rfl
  | cons p rest ih =>
    refine (ih (run_le_insertRun hle _)).trans ((mem_runs_insertRun hle).trans (or_iff_right ?_))
    rintro rfl
    exact hne rfl

/-- **A run is filed** under a judging that has been handed out, if this has no
run of the testcase yet. -/
theorem Filed.insertRun (h : s.Filed) {j : Judging} (hj : j ∈ s.judgings)
    (hl : j.lifecycle ≠ .queued) {t : Testcase} (ht : s.IsGradedOn j t)
    (hfresh : ∀ n ∈ s.runs, n.judgingId = j.id → n.testcaseId ≠ t.id) {new : NewRun}
    (hjudging : new.judgingId = j.id) (htestcase : new.testcaseId = t.id) :
    (s.insertRun new).2.Filed := by
  have hmem := @mem_runs_insertRun s h.run_le new
  refine ⟨run_le_insertRun h.run_le new, fun n hn => ?_, fun m hm n hn hjud htest => ?_⟩
  · rcases hmem.mp hn with rfl | hn
    · exact ⟨j, hj, hjudging.symm, hl, t, ht, htestcase.symm⟩
    · exact h.judging n hn
  · rcases hmem.mp hm with rfl | hm <;> rcases hmem.mp hn with rfl | hn
    · rfl
    · exact absurd (htest.symm.trans htestcase) (hfresh n hn (hjud.symm.trans hjudging))
    · exact absurd (htest.trans htestcase) (hfresh m hm (hjud.trans hjudging))
    · exact h.run_eq m hm n hn hjud htest

/-- **Runs are filed** if they are of different testcases that the judging has
no runs of. -/
theorem Filed.recordRuns (h : s.Filed) {j : Judging} (hj : j ∈ s.judgings)
    (hl : j.lifecycle ≠ .queued) {reports : List RunReport}
    (hknown : ∀ p ∈ reports, ∃ t, s.IsGradedOn j t ∧ t.id = p.testcaseId)
    (hfresh : ∀ p ∈ reports, ∀ n ∈ s.runs, n.judgingId = j.id → n.testcaseId ≠ p.testcaseId)
    (hnodup : (reports.map RunReport.testcaseId).Nodup) (now : Instant) :
    (s.recordRuns j.id now reports).Filed := by
  induction reports generalizing s with
  | nil => exact h
  | cons p rest ih =>
    obtain ⟨hp, hrest⟩ := List.nodup_cons.mp hnodup
    obtain ⟨⟨t, ht, htp⟩, hknown⟩ := List.forall_mem_cons.mp hknown
    obtain ⟨hpfresh, hfresh⟩ := List.forall_mem_cons.mp hfresh
    have hfiled : (s.insertRun (Grading.RunReport.toRun p j.id now)).2.Filed :=
      h.insertRun hj hl ht (fun n hn hid => htp ▸ hpfresh n hn hid) rfl htp.symm
    refine ih hfiled hj hknown (fun q hq n hn hid => ?_) hrest
    rcases (mem_runs_insertRun h.run_le).mp hn with rfl | hn
    · -- the run that was just recorded is of another testcase
      exact fun heq => hp (List.mem_map.mpr ⟨q, hq, heq.symm⟩)
    · exact hfresh q hq n hn hid

/-! ## A batch of runs -/

section Grade

variable {j : Judging} {r : Submission}

/-- The runs that decide a judging say what its verdict means. -/
theorem Filed.of_isComplete (h : s.Filed) (hg : s.RunsGraded) (hj : j ∈ s.judgings)
    (hr : r ∈ s.submissions) (hsub : j.submissionId = r.id)
    (hcomplete : (Summary.ofRuns (s.runsOf j.id) (s.testcasesOf r.problemId)).isComplete j.fullTest
      (s.testcasesOf r.problemId).length = true) :
    ((Summary.ofRuns (s.runsOf j.id) (s.testcasesOf r.problemId)).finalVerdict = some .accepted →
      ¬ s.Failed j ∧ s.AllRun j) ∧ (j.fullTest = true → s.AllRun j) := by
  have hdecided := (h.isComplete_iff hg hj hr hsub).mp hcomplete
  have hall : ¬ (j.fullTest = false ∧ s.Failed j) → s.AllRun j :=
    fun hnot => (hdecided.resolve_left hnot).2
  refine ⟨fun hv => ?_, fun hfull => hall ?_⟩
  · have hgraded : ∀ v ∈ (s.runsOf j.id).map Run.verdict, v.isRunVerdict = true :=
      List.forall_mem_map.mpr fun n hn => hg n (mem_runsOf.mp hn).1
    have hnot : ¬ s.Failed j := by
      rw [failed_iff]
      rintro ⟨n, hn, hne⟩
      -- a run that failed would show in the verdict
      have hany := (Verdict.any_reduce_iff hgraded).mpr ⟨_, List.mem_map_of_mem hn, hne⟩
      change Verdict.reduce ((s.runsOf j.id).map Run.verdict) = some .accepted at hv
      rw [hv] at hany
      cases hany
    exact ⟨hnot, hall fun hc => hnot hc.2⟩
  · rintro ⟨hpartial, -⟩
    rw [hfull] at hpartial
    cases hpartial

/-- A batch leaves a judging that was held claimed, or ends it. -/
theorem graded_cases (j : Judging) (runs : List Run) (testcases : List Testcase) (text : String)
    (now : Instant) :
    (Summary.ofRuns runs testcases).isComplete j.fullTest testcases.length = true ∧
      (Grading.graded j runs testcases text now).lifecycle = .finalized ∧
      (Grading.graded j runs testcases text now).verdict =
        (Summary.ofRuns runs testcases).finalVerdict ∨
    ¬ (Summary.ofRuns runs testcases).isComplete j.fullTest testcases.length = true ∧
      (Grading.graded j runs testcases text now).lifecycle = j.lifecycle := by
  by_cases hcomplete :
      (Summary.ofRuns runs testcases).isComplete j.fullTest testcases.length = true
  · rw [Grading.graded_of_complete hcomplete]
    exact .inl ⟨hcomplete, rfl, rfl⟩
  · rw [Grading.graded_of_incomplete hcomplete]
    exact .inr ⟨hcomplete, rfl⟩

/-- Whatever it does to a judging, it is graded on the same. -/
theorem graded_eq (j : Judging) (runs : List Run) (testcases : List Testcase) (text : String)
    (now : Instant) :
    (Grading.graded j runs testcases text now).id = j.id ∧
      (Grading.graded j runs testcases text now).submissionId = j.submissionId ∧
      (Grading.graded j runs testcases text now).fullTest = j.fullTest := by
  unfold Grading.graded
  simp only
  split <;> exact ⟨rfl, rfl, rfl⟩

/-- So its runs say the same of it. -/
theorem sameGrade_graded (s : Store) (j : Judging) (runs : List Run) (testcases : List Testcase)
    (text : String) (now : Instant) :
    s.SameGrade j s (Grading.graded j runs testcases text now) := by
  obtain ⟨hid, hsub, hfull⟩ := graded_eq j runs testcases text now
  refine .of_runs hid hfull (fun _ _ => Iff.rfl) fun t => ?_
  rw [IsGradedOn, IsGradedOn, hsub]

/-- A judging that is graded in the store of its runs stands as they say. -/
theorem Filed.rated_graded (h : s.Filed) (hg : s.RunsGraded) (hj : j ∈ s.judgings)
    (hl : j.lifecycle = .claimed) (hr : r ∈ s.submissions) (hsub : j.submissionId = r.id)
    (hjury : s.isJury j.submissionId = true → j.fullTest = true) (text : String) (now : Instant) :
    s.Rated (Grading.graded j (s.runsOf j.id) (s.testcasesOf r.problemId) text now) := by
  obtain ⟨-, hsub', hfull'⟩ :=
    graded_eq j (s.runsOf j.id) (s.testcasesOf r.problemId) text now
  have hcases := graded_cases j (s.runsOf j.id) (s.testcasesOf r.problemId) text now
  have hsame := s.sameGrade_graded j (s.runsOf j.id) (s.testcasesOf r.problemId) text now
  generalize Grading.graded j (s.runsOf j.id) (s.testcasesOf r.problemId) text now = j' at *
  refine ⟨fun hl' => ?undecided, fun hl' hv => ?accepted, fun hl' hfull _ _ => ?full, ?jury⟩
  case undecided =>
    -- it is held still, so the summary was not complete
    rw [hsame.isDecided, ← h.isComplete_iff hg hj hr hsub]
    rcases hcases with ⟨-, hfin, -⟩ | ⟨hincomplete, -⟩
    · rw [hl'] at hfin
      cases hfin
    · exact hincomplete
  case accepted =>
    -- it was held before, so it is this batch that has ended it
    rw [hsame.failed, hsame.allRun]
    rcases hcases with ⟨hcomplete, -, hverdict⟩ | ⟨-, hclaimed⟩
    · exact (h.of_isComplete hg hj hr hsub hcomplete).1 (hverdict.symm.trans hv)
    · rw [hl', hl] at hclaimed
      cases hclaimed
  case full =>
    rw [hsame.allRun]
    rcases hcases with ⟨hcomplete, -, -⟩ | ⟨-, hclaimed⟩
    · exact (h.of_isComplete hg hj hr hsub hcomplete).2 (hfull'.symm.trans hfull)
    · rw [hl', hl] at hclaimed
      cases hclaimed
  case jury =>
    rw [hsub', hfull']
    exact hjury

/-- A store in which one judging has moved on, out of the queue, is graded if
that judging stands as its runs say and all others do. -/
theorem Filed.graded_modify (h : s.Filed) (hj : j ∈ s.judgings) {f : Judging → Judging}
    (hf : ∀ j, key (f j) = key j) (hsub : (f j).submissionId = j.submissionId)
    (hl : (f j).lifecycle ≠ .queued) (hrated : s.Rated (f j))
    (hothers : ∀ i ∈ s.judgings, i.id ≠ j.id → s.Rated i) :
    ({ s with judgings := s.judgings.modify j.id f hf } : Store).Graded := by
  have hmem : ∀ b : Judging, b ∈ s.judgings.modify j.id f hf ↔
      b = f j ∨ b ∈ s.judgings ∧ b.id ≠ j.id := by
    intro b
    rw [Table.mem_modify]
    refine or_congr_left ⟨?_, ?_⟩
    · rintro ⟨a, ha, hid, rfl⟩
      rw [judging_eq ha hj hid]
    · rintro rfl
      exact ⟨j, hj, rfl, rfl⟩
  -- neither runs nor testcases have changed, so every judging stands as it did
  have hsame : ∀ i : Judging, s.Rated i →
      ({ s with judgings := s.judgings.modify j.id f hf } : Store).Rated i := by
    intro i hi
    exact hi.of_sameGrade (.of_runs rfl rfl (fun _ _ => Iff.rfl) fun _ => Iff.rfl) rfl
  refine ⟨⟨h.run_le, fun n hn => ?_, h.run_eq⟩, fun b hb => hsame b ?_⟩
  · obtain ⟨i, hi, hid, hil, t, ht, htn⟩ := h.judging n hn
    by_cases heq : i.id = j.id
    · -- runs of the judging that moves on stay filed under it
      have hij : i = j := judging_eq hi hj heq
      subst hij
      have hkey : (f i).id = i.id := hf i
      refine ⟨f i, (hmem (f i)).mpr (.inl rfl), hkey.trans hid, hl, t, ⟨ht.1, ?_⟩, htn⟩
      rw [hsub]
      exact ht.2
    · exact ⟨i, (hmem i).mpr (.inr ⟨hi, heq⟩), hid, hil, t, ht, htn⟩
  · rcases (hmem b).mp hb with rfl | ⟨hb, hne⟩
    · exact hrated
    · exact hothers b hb hne

/-- The judging that is graded has ended exactly if its runs decide it, and is
held otherwise. -/
theorem Filed.exists_graded (h : s.Filed) (hg : s.RunsGraded) (hj : j ∈ s.judgings)
    (hl : j.lifecycle = .claimed) (hr : r ∈ s.submissions) (hsub : j.submissionId = r.id)
    (text : String) (now : Instant) :
    ∃ j' ∈ s.judgings.modify j.id
        (Grading.graded · (s.runsOf j.id) (s.testcasesOf r.problemId) text now)
        (Grading.key_graded · _ _ _ now),
      (j'.id = j.id ∧ j'.submissionId = j.submissionId ∧ j'.fullTest = j.fullTest) ∧
      (j'.lifecycle ≠ .finalized → j'.lifecycle = .claimed ∧ j'.server = j.server) ∧
      (j'.lifecycle = .finalized ↔ s.IsDecided j') := by
  refine ⟨_, Table.mem_modify.mpr (.inl ⟨j, hj, rfl, rfl⟩), graded_eq j _ _ text now, ?_, ?_⟩
  · intro hne
    rcases graded_cases j (s.runsOf j.id) (s.testcasesOf r.problemId) text now with
      ⟨-, hfin, -⟩ | ⟨hincomplete, hclaimed⟩
    · exact absurd hfin hne
    · rw [hclaimed, Grading.graded_of_incomplete hincomplete]
      exact ⟨hl, rfl⟩
  · rw [(s.sameGrade_graded j _ _ text now).isDecided, ← h.isComplete_iff hg hj hr hsub]
    rcases graded_cases j (s.runsOf j.id) (s.testcasesOf r.problemId) text now with
      ⟨hcomplete, hfin, -⟩ | ⟨hincomplete, hclaimed⟩
    · exact iff_of_true hfin hcomplete
    · refine iff_of_false ?_ hincomplete
      rw [hclaimed, hl]
      decide

/-- Reports that a batch on a judging records: of testcases that it is graded
on and has no runs of, one for each. -/
structure IsBatch (s : Store) (j : Judging) (r : Submission) (reports : List RunReport) :
    Prop where
  judging : j ∈ s.judgings
  claimed : j.lifecycle = .claimed
  submission : r ∈ s.submissions
  submissionId : j.submissionId = r.id
  verdict : ∀ p ∈ reports, p.verdict.isRunVerdict = true
  known : ∀ p ∈ reports, ∃ t ∈ s.testcasesOf r.problemId, t.id = p.testcaseId
  fresh : ∀ p ∈ reports, ∀ n ∈ s.runsOf j.id, n.testcaseId ≠ p.testcaseId
  nodup : (reports.map RunReport.testcaseId).Nodup

section Batch

variable {reports : List RunReport} (h : s.IsBatch j r reports)

include h

theorem IsBatch.filed (hf : s.Filed) (now : Instant) : (s.recordRuns j.id now reports).Filed := by
  refine hf.recordRuns h.judging (by rw [h.claimed]; decide) (fun p hp => ?_)
    (fun p hp n hn hid => h.fresh p hp n (mem_runsOf.mpr ⟨hn, hid⟩)) h.nodup now
  obtain ⟨t, ht, hid⟩ := h.known p hp
  exact ⟨t, (isGradedOn_iff h.submission h.submissionId).mpr ht, hid⟩

/-- **A batch** files its runs, and ends the judging if they decide it. -/
theorem IsBatch.graded (hs : s.Sound) (hg : s.Graded) (now : Instant) :
    (s.grade j.id r.problemId reports now).Graded := by
  have hfiled : (s.recordRuns j.id now reports).Filed := h.filed hg.filed now
  have hruns : (s.recordRuns j.id now reports).RunsGraded :=
    runsGraded_recordRuns h.verdict hs.runs j.id now
  have hothers : ∀ n : Run, n.judgingId ≠ j.id →
      (n ∈ (s.recordRuns j.id now reports).runs ↔ n ∈ s.runs) :=
    fun n => mem_runs_recordRuns_of_ne hg.filed.run_le
  rw [Grading.grade_eq]
  obtain ⟨runs, hrecord⟩ := s.exists_recordRuns j.id now reports
  rw [hrecord] at hfiled hruns hothers ⊢
  -- only the judging that is reported on has other runs than before
  have hrated := hfiled.rated_graded hruns h.judging h.claimed h.submission h.submissionId
    (hg.rated j h.judging).jury (Grading.fragment reports) now
  refine hfiled.graded_modify h.judging _ (graded_eq j _ _ _ now).2.1 ?_ hrated
    fun i hi hne => ?_
  · rcases graded_cases j
      ({ s with runs := runs, lastRun := s.lastRun + reports.length : Store }.runsOf j.id)
      (s.testcasesOf r.problemId) (Grading.fragment reports) now with ⟨-, hfin, -⟩ | ⟨-, hclaimed⟩
    · rw [hfin]
      decide
    · rw [hclaimed, h.claimed]
      decide
  · refine (hg.rated i hi).of_sameGrade (.of_runs rfl rfl (fun n hn => ?_) fun _ => Iff.rfl) rfl
    exact hothers n (hn ▸ hne)

/-- **The judging that is reported on** ends with the batch exactly if its runs
decide it then, and is held otherwise. -/
theorem IsBatch.exists_graded (hs : s.Sound) (hg : s.Graded) (now : Instant) :
    ∃ j' ∈ (s.grade j.id r.problemId reports now).judgings,
      (j'.id = j.id ∧ j'.submissionId = j.submissionId ∧ j'.fullTest = j.fullTest) ∧
      (j'.lifecycle ≠ .finalized → j'.lifecycle = .claimed ∧ j'.server = j.server) ∧
      (j'.lifecycle = .finalized ↔ (s.grade j.id r.problemId reports now).IsDecided j') := by
  have hfiled : (s.recordRuns j.id now reports).Filed := h.filed hg.filed now
  have hruns : (s.recordRuns j.id now reports).RunsGraded :=
    runsGraded_recordRuns h.verdict hs.runs j.id now
  rw [Grading.grade_eq]
  obtain ⟨runs, hrecord⟩ := s.exists_recordRuns j.id now reports
  rw [hrecord] at hfiled hruns ⊢
  exact hfiled.exists_graded hruns h.judging h.claimed h.submission h.submissionId _ now

end Batch

end Grade

/-! ## Testcases that are removed -/

section RemoveTestcase

variable {t : Testcase}

theorem mem_runs_deleteTestcase {id : Int} {n : Run} :
    n ∈ (s.deleteTestcase id).2.runs ↔ n ∈ s.runs ∧ n.testcaseId ≠ id := by
  change n ∈ s.runs.keep (fun r => r.testcaseId ≠ id) ↔ _
  rw [Table.mem_keep, decide_eq_true_iff]

theorem isGradedOn_deleteTestcase {id : Int} {j : Judging} {u : Testcase} :
    (s.deleteTestcase id).2.IsGradedOn j u ↔ s.IsGradedOn j u ∧ u.id ≠ id := by
  have hmem : u ∈ (s.deleteTestcase id).2.testcases ↔ u ∈ s.testcases ∧ u.id ≠ id := by
    change u ∈ s.testcases.keep (fun u => u.id ≠ id) ↔ _
    rw [Table.mem_keep, decide_eq_true_iff]
  rw [IsGradedOn, hmem]
  exact and_right_comm

/-- What is left of the runs is filed under what is left of the testcases. -/
theorem Filed.deleteTestcase (h : s.Filed) (id : Int) : (s.deleteTestcase id).2.Filed := by
  refine ⟨fun n hn => ?_, fun n hn => ?_, fun m hm n hn => ?_⟩
  · exact h.run_le n (mem_runs_deleteTestcase.mp hn).1
  · obtain ⟨hmem, hne⟩ := mem_runs_deleteTestcase.mp hn
    obtain ⟨j, hj, hid, hl, u, hu, hun⟩ := h.judging n hmem
    exact ⟨j, hj, hid, hl, u, isGradedOn_deleteTestcase.mpr ⟨hu, hun ▸ hne⟩, hun⟩
  · exact h.run_eq m (mem_runs_deleteTestcase.mp hm).1 n (mem_runs_deleteTestcase.mp hn).1

/-- A judging that has all runs keeps those of the testcases that are left. -/
theorem AllRun.deleteTestcase {j : Judging} (h : s.AllRun j) (id : Int) :
    (s.deleteTestcase id).2.AllRun j := by
  intro u hu
  obtain ⟨hu, hne⟩ := isGradedOn_deleteTestcase.mp hu
  obtain ⟨n, hn, hid, htest⟩ := h u hu
  exact ⟨n, mem_runs_deleteTestcase.mpr ⟨hn, htest ▸ hne⟩, hid, htest⟩

/-- A judging of another problem does not notice. -/
theorem Filed.sameGrade_deleteTestcase (h : s.Filed) (ht : t ∈ s.testcases) {j : Judging}
    (hj : j ∈ s.judgings) (hproblem : s.problemOf j.submissionId ≠ some t.problemId) :
    s.SameGrade j (s.deleteTestcase t.id).2 j := by
  -- a testcase that the judging is graded on has another id
  have hne : ∀ u, s.IsGradedOn j u → u.id ≠ t.id := by
    rintro u ⟨hu, hup⟩ hid
    have hut : u = t := Table.eq_of_key_eq hu ht hid
    rw [hut] at hup
    exact hproblem hup
  refine .of_runs rfl rfl (fun n hn => ?_) fun u => ?_
  · rw [mem_runs_deleteTestcase, and_iff_left_iff_imp]
    intro hmem
    obtain ⟨i, hi, hid, -, u, hu, hun⟩ := h.judging n hmem
    have hij : i = j := judging_eq hi hj (hid.trans hn)
    subst hij
    exact hun ▸ hne u hu
  · rw [isGradedOn_deleteTestcase, and_iff_left_iff_imp]
    exact hne u

/-- **A testcase is taken away** with its runs, while no judging of its problem
is held. -/
theorem Sound.graded_deleteTestcase (hs : s.Sound) (hg : s.Graded) (ht : t ∈ s.testcases)
    (hidle : ∀ j ∈ s.judgings, ∀ r ∈ s.submissions, j.submissionId = r.id →
      r.problemId = t.problemId → j.isClaimed = false) : (s.deleteTestcase t.id).2.Graded := by
  refine ⟨hg.filed.deleteTestcase t.id, fun j hj => ?_⟩
  have hj : j ∈ s.judgings := hj
  have hrated := hg.rated j hj
  refine ⟨fun hl => ?_, fun hl hv => ?_, fun hl hfull hce hue => ?_, hrated.jury⟩
  · -- the judging is held, so it is of another problem
    have hproblem : s.problemOf j.submissionId ≠ some t.problemId := by
      obtain ⟨r, hr, hid⟩ := hs.numbered.owned j hj
      rw [← hid, problemOf_eq hr]
      intro hrt
      have hfree := hidle j hj r hr hid.symm (Option.some.inj hrt)
      rw [Judging.isClaimed_iff.mpr hl] at hfree
      cases hfree
    rw [(hg.filed.sameGrade_deleteTestcase ht hj hproblem).isDecided]
    exact hrated.undecided hl
  · obtain ⟨hnot, hall⟩ := hrated.accepted hl hv
    refine ⟨?_, hall.deleteTestcase t.id⟩
    rintro ⟨n, hn, hfailed⟩
    exact hnot ⟨n, (mem_runs_deleteTestcase.mp hn).1, hfailed⟩
  · exact (hrated.full hl hfull hce hue).deleteTestcase t.id

end RemoveTestcase

/-! ## All changes -/

/-- **Every change keeps the store graded.** -/
theorem Sound.graded_change {now : Instant} {es : List Event} (hs : s.Sound) (hg : s.Graded)
    (hc : Change now s es s') : s'.Graded := by
  cases hc with
  | addJudgehost | touchJudgehost | switchJudgehost | switchProblem | switchLanguage | raise
  | close | openRejudging => exact hg.keeps (.of_eq (.of_eq rfl rfl) rfl rfl rfl)
  | removeTestcase ht hidle => exact hs.graded_deleteTestcase hg ht hidle
  | enqueue hr hidle =>
    refine hg.keeps (.of_queues (queues_queue hs.numbered ⟨_, hr, rfl⟩) (.of_eq rfl rfl) rfl
      (fun a _ => .refl a) ?_)
    exact fullTest_of_isJury hr id
  | claim hhost hj => exact hg.keeps (keepsGrades_handOut hj _ now)
  | putBack hj =>
    exact hg.keeps (.of_modify Judging.key_unclaimed (.of_eq rfl rfl) rfl rfl rfl
      (mem_of_nextDispatchable hj).1 (.of_eq rfl rfl rfl rfl rfl))
  | compile hj hheld success output =>
    exact hg.keeps (.of_modify (Dispatch.key_compiled · success output now) (.of_eq rfl rfl) rfl rfl
      rfl hj (Judging.keepsGrade_compiled _ success output now))
  | grade hj hheld hr hsub hverdict htestcase hfresh hnodup =>
    have hbatch : s.IsBatch _ _ _ :=
      ⟨hj, Judging.lifecycle_of_isClaimedBy hheld, hr, hsub, hverdict, htestcase, hfresh, hnodup⟩
    exact hbatch.graded hs hg now
  | requeue hj hheld _ => exact hg.keeps (keepsGrades_replace hs.numbered hg hj now)
  | rejudge hr _ =>
    exact (hs.graded_rejudged hg hr).keeps (.of_eq (.of_eq rfl rfl) rfl rfl rfl)
  | propose hq hopen hr hfree hcontest hj hsub _ fullTest =>
    exact hg.keeps (hs.keepsGrades_propose hg hr hj hsub fullTest)
  | @apply q _ hq hopen hdone operator _ =>
    -- the statistics are merged into the store that the candidates have taken over
    have happ : (s.applyRejudging q.id now operator).Graded :=
      hg.keeps (keepsGrades_applyRejudging _ now operator)
    exact happ.keeps (.of_eq (.of_eq rfl rfl) rfl rfl rfl)
  | cancel hq hopen operator =>
    exact hg.keeps (keepsGrades_cancelRejudging hg _ now operator)
  | count id _ =>
    exact hg.keeps (.of_update Judging.key_flagged (.of_eq rfl rfl) rfl rfl rfl
      fun _ _ _ => .of_eq rfl rfl rfl rfl rfl)
  | rebuild contestId =>
    exact hg.keeps (.of_update Judging.key_reflagged (.of_eq rfl rfl) rfl rfl rfl
      fun _ _ _ => .of_eq rfl rfl rfl rfl rfl)

end Store

end JudgeQueue
