import JudgeQueue.Proofs.Graded.Progress
import JudgeQueue.Proofs.Grading.Run
/-!
# Grading — a batch as a whole

Of the reports of a batch the first of each testcase is recorded, unless the
testcase has a run already, and the runs get the next ids in the order of the
reports. Whether they end the judging, and with which verdict, time, memory and
score, is decided by all of its runs, those that were there before and those
that have just been recorded.
-/

namespace JudgeQueue

/-! ## The strongest verdict -/

namespace Verdict

variable {u v w : Verdict} {vs : List Verdict}

/-- Both are verdicts of runs, and the first has a priority at least as
strong. -/
def Outranks (v w : Verdict) : Prop :=
  ∃ p q, v.priority = some p ∧ w.priority = some q ∧ p ≤ q

theorem Outranks.refl (h : v.isRunVerdict = true) : v.Outranks v := by
  obtain ⟨p, hp⟩ := Option.isSome_iff_exists.mp h
  exact ⟨p, p, hp, hp, Nat.le_refl p⟩

theorem Outranks.trans (h : u.Outranks v) (h' : v.Outranks w) : u.Outranks w := by
  obtain ⟨p, q, hp, hq, hle⟩ := h
  obtain ⟨q', r, hq', hr, hle'⟩ := h'
  cases hq.symm.trans hq'
  exact ⟨p, r, hp, hr, Nat.le_trans hle hle'⟩

/-- The stronger of two verdicts of runs outranks both. -/
theorem outranks_stronger (hv : v.isRunVerdict = true) (hw : w.isRunVerdict = true) :
    (v.stronger w).Outranks v ∧ (v.stronger w).Outranks w := by
  obtain ⟨p, hp⟩ := Option.isSome_iff_exists.mp hv
  obtain ⟨q, hq⟩ := Option.isSome_iff_exists.mp hw
  simp only [stronger, hp, hq]
  split
  · next hlt => exact ⟨⟨q, p, hq, hp, Nat.le_of_lt hlt⟩, .refl hw⟩
  · next hle => exact ⟨.refl hv, p, q, hp, hq, Nat.le_of_not_lt hle⟩

theorem outranks_foldl_stronger (hv : v.isRunVerdict = true)
    (h : ∀ w ∈ vs, w.isRunVerdict = true) :
    (vs.foldl stronger v).Outranks v ∧ ∀ w ∈ vs, (vs.foldl stronger v).Outranks w := by
  induction vs generalizing v with
  | nil => exact ⟨.refl hv, fun w hw => by cases hw⟩
  | cons w rest ih =>
    obtain ⟨hw, hrest⟩ := List.forall_mem_cons.mp h
    obtain ⟨hfirst, hall⟩ := ih (isRunVerdict_stronger hv hw) hrest
    obtain ⟨hleft, hright⟩ := outranks_stronger hv hw
    exact ⟨hfirst.trans hleft, List.forall_mem_cons.mpr ⟨hfirst.trans hright, hall⟩⟩

/-- **Verdicts of runs reduce to the strongest of them.** -/
theorem outranks_reduce (h : ∀ v ∈ vs, v.isRunVerdict = true) (hv : reduce vs = some v) :
    v ∈ vs ∧ ∀ w ∈ vs, v.Outranks w := by
  refine ⟨(mem_of_reduce hv).1, ?_⟩
  rw [reduce, List.filter_eq_self.mpr h] at hv
  cases vs with
  | nil => cases hv
  | cons u rest =>
    obtain ⟨hu, hrest⟩ := List.forall_mem_cons.mp h
    obtain ⟨hfirst, hall⟩ := outranks_foldl_stronger hu hrest
    rw [← Option.some.inj hv]
    exact List.forall_mem_cons.mpr ⟨hfirst, hall⟩

end Verdict

/-- The highest of some numbers is one of them, and none exceeds it. -/
theorem Summary.highest_spec {ns : List Int} (hne : ns ≠ []) :
    highest ns ∈ ns ∧ ∀ n ∈ ns, n ≤ highest ns := by
  obtain ⟨n, rest, rfl⟩ := List.exists_cons_of_ne_nil hne
  have hmax : (n :: rest).max? = some (highest (n :: rest)) := List.max?_cons'
  exact List.max?_eq_some_iff.mp hmax

/-! ## The reports that are recorded -/

namespace Grading

/-- Leaving elements out and leaving repetitions out may change places. -/
theorem eraseDups_filter {α : Type} [DecidableEq α] (p : α → Bool) (as : List α) :
    (as.filter p).eraseDups = as.eraseDups.filter p := by
  match as with
  | [] => rfl
  | a :: rest =>
    have ih := eraseDups_filter p (rest.filter fun b => !b == a)
    rw [List.filter_filter] at ih
    by_cases ha : p a = true
    · rw [List.filter_cons_of_pos ha, List.eraseDups_cons, List.eraseDups_cons,
        List.filter_cons_of_pos ha, ← ih, List.filter_filter]
      simp only [Bool.and_comm]
    · -- what passes differs from an element that does not
      have hdiffers : (rest.filter fun b => p b && !b == a) = rest.filter p := by
        refine List.filter_congr fun b _ => ?_
        by_cases hba : b = a
        · simp [hba, ha]
        · simp [hba]
      rw [List.filter_cons_of_neg ha, List.eraseDups_cons, List.filter_cons_of_neg ha, ← ih,
        hdiffers]
termination_by as.length
decreasing_by exact Nat.lt_succ_of_le (List.length_filter_le ..)

variable {seen : List Int} {reports recorded : List RunReport} {p : RunReport}

/-- **One report a testcase** is recorded, in the order in which the testcases
are first reported. -/
theorem map_testcaseId_fresh (seen : List Int) (reports : List RunReport) :
    (fresh seen reports).map RunReport.testcaseId =
      (reports.map RunReport.testcaseId).eraseDups.filter fun id => !seen.contains id := by
  induction reports generalizing seen with
  | nil => rfl
  | cons r rest ih =>
    have hothers :
        ((rest.map RunReport.testcaseId).filter fun id => !id == r.testcaseId).eraseDups =
          (rest.map RunReport.testcaseId).eraseDups.filter fun id => !id == r.testcaseId :=
      eraseDups_filter _ _
    rw [fresh, List.map_cons, List.eraseDups_cons, hothers]
    by_cases hseen : seen.contains r.testcaseId = true
    · rw [if_pos hseen, ih, List.filter_cons_of_neg (by rw [hseen]; decide), List.filter_filter]
      refine List.filter_congr fun id _ => ?_
      by_cases hid : id = r.testcaseId
      · rw [hid, hseen]
        rfl
      · simp [hid]
    · rw [if_neg hseen, List.map_cons, ih, List.filter_cons_of_pos (by simpa using hseen),
        List.filter_filter]
      refine congrArg (r.testcaseId :: ·) (List.filter_congr fun id _ => ?_)
      rw [List.contains_cons, Bool.not_or, Bool.and_comm]

/-- **What is recorded of a testcase** is its first report. -/
theorem find?_of_mem_fresh (h : p ∈ fresh seen reports) :
    reports.find? (fun q => q.testcaseId = p.testcaseId) = some p := by
  induction reports generalizing seen with
  | nil => cases h
  | cons r rest ih =>
    rw [fresh] at h
    split at h
    · next hseen =>
      -- a report that is skipped is of a testcase that has been seen
      have hne : r.testcaseId ≠ p.testcaseId := by
        intro heq
        rw [heq] at hseen
        exact (mem_of_mem_fresh h).2 (by simpa using hseen)
      rw [List.find?_cons_of_neg (by simpa using hne)]
      exact ih h
    · rcases List.mem_cons.mp h with rfl | h
      · exact List.find?_cons_of_pos (decide_eq_true rfl)
      · have hne : r.testcaseId ≠ p.testcaseId :=
          fun heq => (mem_of_mem_fresh h).2 (heq ▸ List.mem_cons_self)
        rw [List.find?_cons_of_neg (by simpa using hne)]
        exact ih h

end Grading

namespace Store

variable {s : Store} {j : Judging} {r : Submission} {reports : List RunReport} {now : Instant}

/-- **Runs are recorded after those that are there**, under the next ids. -/
theorem rows_recordRuns (hle : ∀ n ∈ s.runs, n.id ≤ s.lastRun) (id : Int) (now : Instant)
    (reports : List RunReport) :
    (s.recordRuns id now reports).runs.rows = s.runs.rows ++ reports.mapIdx fun i p =>
      (Grading.RunReport.toRun p id now).recorded (s.lastRun + 1 + i) := by
  induction reports generalizing s with
  | nil => exact (List.append_nil _).symm
  | cons p rest ih =>
    have hrest := ih (run_le_insertRun hle (Grading.RunReport.toRun p id now))
    refine hrest.trans ?_
    have hnext : ∀ i : Nat, (s.insertRun (Grading.RunReport.toRun p id now)).2.lastRun + 1 + i =
        s.lastRun + 1 + ((i + 1 : Nat) : Int) := by
      intro i
      change s.lastRun + 1 + 1 + (i : Int) = _
      omega
    have hfirst : s.lastRun + 1 + ((0 : Nat) : Int) = s.lastRun + 1 := Int.add_zero _
    rw [rows_insertRun hle, List.append_assoc, List.mapIdx_cons, hfirst]
    simp only [hnext]
    rfl

end Store

/-! ## What a batch makes of a judging and of a store -/

/-- A batch records of its reports the first of each testcase that had no run,
in the order in which these are reported. -/
structure Grading.Picks (earlier : List Run) (reports recorded : List RunReport) : Prop where
  testcases : recorded.map RunReport.testcaseId =
    (reports.map RunReport.testcaseId).eraseDups.filter
      fun id => !(earlier.map Run.testcaseId).contains id
  first : ∀ p ∈ recorded, reports.find? (fun q => q.testcaseId = p.testcaseId) = some p

/-- All runs of a judging end it, with the strongest of their verdicts and the
most memory that one of them used. Time and score are gathered in the order of
the runs, and nothing else changes but the progress. -/
structure Judging.EndsWith (j j' : Judging) (runs : List Run) (testcases : List Testcase)
    (now : Instant) : Prop where
  row : j' = { j with
    lifecycle := .finalized
    verdict := j'.verdict
    executeTime := some (Summary.longest (runs.map Run.executeTime))
    executeMemory := j'.executeMemory
    totalScore := (Summary.points runs testcases).foldl (· + ·) 0.0
    stopTime := some now
    runVerdicts := j'.runVerdicts }
  verdict : ∃ n ∈ runs, j'.verdict = some n.verdict ∧ n.verdict ≠ .undefinedError ∧
    ∀ m ∈ runs, n.verdict.Outranks m.verdict
  memory : ∃ n ∈ runs, j'.executeMemory = some n.executeMemory ∧
    ∀ m ∈ runs, m.executeMemory ≤ n.executeMemory

/-- Some reports on a judging are recorded: each adds a run and a character of
progress, and the judging ends exactly if all its runs decide it. -/
structure Store.GradesBatch (s s' : Store) (j j' : Judging) (problemId : Int)
    (recorded : List RunReport) (now : Instant) : Prop where
  runs : s'.runs.rows = s.runs.rows ++ recorded.mapIdx fun i p =>
    (Grading.RunReport.toRun p j.id now).recorded (s.lastRun + 1 + i)
  lastRun : s'.lastRun = s.lastRun + recorded.length
  ascending : ((s'.runsOf j.id).map Run.id).Pairwise (· < ·)
  progress : j'.runVerdicts.toList.map some =
    j.runVerdicts.toList.map some ++ recorded.map fun p => p.verdict.progressChar
  ends_iff : j'.lifecycle = .finalized ↔ s'.IsDecided j
  ended : j'.lifecycle = .finalized →
    j.EndsWith j' (s'.runsOf j.id) (s'.testcasesOf problemId) now
  held : j'.lifecycle ≠ .finalized → j' = { j with runVerdicts := j'.runVerdicts }
  judgings : ∀ i, i ∈ s'.judgings ↔ i = j' ∨ i ∈ s.judgings ∧ i.id ≠ j.id
  frame : s' = { s with runs := s'.runs, lastRun := s'.lastRun, judgings := s'.judgings }

/-- Every report that is recorded has its run. -/
theorem Store.GradesBatch.exists_run {s s' : Store} {j j' : Judging} {problemId : Int}
    {recorded : List RunReport} {now : Instant} (h : s.GradesBatch s' j j' problemId recorded now)
    {p : RunReport} (hp : p ∈ recorded) :
    ∃ n ∈ s'.runs, n.judgingId = j.id ∧ n.testcaseId = p.testcaseId ∧ n.verdict = p.verdict := by
  obtain ⟨i, hi, rfl⟩ := List.mem_iff_getElem.mp hp
  refine ⟨(Grading.RunReport.toRun recorded[i] j.id now).recorded (s.lastRun + 1 + i), ?_, rfl,
    rfl, rfl⟩
  rw [← Table.mem_rows, h.runs, List.mem_append, List.mem_mapIdx]
  exact .inr ⟨i, hi, rfl⟩

/-- **What is fresh is what a batch records.** -/
theorem Grading.picks_fresh (earlier : List Run) (reports : List RunReport) :
    Picks earlier reports (fresh (earlier.map Run.testcaseId) reports) :=
  ⟨map_testcaseId_fresh _ reports, fun _ => find?_of_mem_fresh⟩

namespace Grading

variable {j : Judging} {runs : List Run} {testcases : List Testcase} {text : String}
variable {now : Instant}

/-- **Runs that complete a judging** end it. -/
theorem endsWith_graded
    (hcomplete : (Summary.ofRuns runs testcases).isComplete j.fullTest testcases.length = true)
    (hgraded : ∀ n ∈ runs, n.verdict.isRunVerdict = true) :
    j.EndsWith (graded j runs testcases text now) runs testcases now := by
  obtain ⟨v, hv, hne⟩ := Summary.exists_finalVerdict hcomplete hgraded
  have hverdicts : ∀ v ∈ runs.map Run.verdict, v.isRunVerdict = true :=
    List.forall_mem_map.mpr hgraded
  obtain ⟨hmem, hall⟩ := Verdict.outranks_reduce hverdicts hv
  obtain ⟨n, hn, rfl⟩ := List.mem_map.mp hmem
  have hsome : runs.map Run.executeMemory ≠ [] :=
    List.ne_nil_of_mem (List.mem_map_of_mem hn)
  obtain ⟨hattained, hbound⟩ := Summary.highest_spec hsome
  obtain ⟨m, hm, hmax⟩ := List.mem_map.mp hattained
  rw [graded_of_complete hcomplete]
  exact ⟨rfl, ⟨n, hn, hv, hne, List.forall_mem_map.mp hall⟩,
    ⟨m, hm, congrArg some hmax.symm, fun k hk => hmax ▸ hbound _ (List.mem_map_of_mem hk)⟩⟩

/-- The progress grows by what has been recorded, whether or not the judging
ends. -/
theorem runVerdicts_graded :
    (graded j runs testcases text now).runVerdicts = j.runVerdicts ++ text := by
  unfold graded
  simp only
  split <;> rfl

/-- The end of a judging is told of. -/
theorem told_eq (hl : j.lifecycle = .claimed) (text : String) (now : Instant) :
    told j runs testcases =
      if (graded j runs testcases text now).isFinalized
      then [.judgingFinished j.id j.submissionId] else [] := by
  by_cases hcomplete :
      (Summary.ofRuns runs testcases).isComplete j.fullTest testcases.length = true
  · rw [told, if_pos hcomplete, graded_of_complete hcomplete]
    rfl
  · rw [told, if_neg hcomplete, graded_of_incomplete hcomplete, Judging.isFinalized, hl]
    rfl

end Grading

namespace Store

variable {s : Store} {j : Judging} {r : Submission} {recorded : List RunReport}

/-- **A batch** records its reports and grades the judging by all its runs. -/
theorem IsBatch.gradesBatch (h : s.IsBatch j r recorded) (hs : s.Sound) (hg : s.Graded)
    (now : Instant) :
    s.GradesBatch (s.grade j.id r.problemId recorded now) j
      (Grading.graded j ((s.recordRuns j.id now recorded).runsOf j.id) (s.testcasesOf r.problemId)
        (Grading.fragment recorded) now) r.problemId recorded now := by
  have hrows := rows_recordRuns hg.filed.run_le j.id now recorded
  have hfiled : (s.recordRuns j.id now recorded).Filed := h.filed hg.filed now
  have hruns : (s.recordRuns j.id now recorded).RunsGraded :=
    runsGraded_recordRuns h.verdict hs.runs j.id now
  rw [Grading.grade_eq]
  obtain ⟨runs, hrecord⟩ := s.exists_recordRuns j.id now recorded
  rw [hrecord] at hrows hfiled hruns ⊢
  -- the runs are recorded, and the judging has yet to be graded
  generalize hs₁ :
    ({ s with runs := runs, lastRun := s.lastRun + recorded.length } : Store) = s₁ at *
  have htestcases : s.testcasesOf r.problemId = s₁.testcasesOf r.problemId := hs₁ ▸ rfl
  have hj : j ∈ s₁.judgings := hs₁ ▸ h.judging
  have hdecided := hfiled.isComplete_iff hruns hj (hs₁ ▸ h.submission) h.submissionId
  have hcases := graded_cases j (s₁.runsOf j.id) (s₁.testcasesOf r.problemId)
    (Grading.fragment recorded) now
  rw [htestcases]
  refine ⟨hrows, hs₁ ▸ rfl, runsOf_ascending _ _, ?progress, ?ends_iff, ?ended, ?held, ?judgings,
    hs₁ ▸ rfl⟩
  case progress =>
    rw [Grading.runVerdicts_graded, String.toList_append, List.map_append,
      Grading.toList_fragment h.verdict]
  case ends_iff =>
    refine Iff.trans ?_ hdecided
    rcases hcases with ⟨hcomplete, hfin, -⟩ | ⟨hincomplete, hclaimed⟩
    · exact iff_of_true hfin hcomplete
    · refine iff_of_false ?_ hincomplete
      rw [hclaimed, h.claimed]
      decide
  case ended =>
    intro hfin
    rcases hcases with ⟨hcomplete, -⟩ | ⟨-, hclaimed⟩
    · exact Grading.endsWith_graded hcomplete fun n hn => hruns n (mem_runsOf.mp hn).1
    · rw [hfin, h.claimed] at hclaimed
      cases hclaimed
  case held =>
    intro hne
    rcases hcases with ⟨-, hfin, -⟩ | ⟨hincomplete, -⟩
    · exact absurd hfin hne
    · rw [Grading.graded_of_incomplete hincomplete]
  case judgings =>
    intro i
    have hsame : s.judgings = s₁.judgings := hs₁ ▸ rfl
    rw [hsame, Table.mem_modify]
    refine or_congr_left ⟨?_, fun hi => ⟨j, hj, rfl, hi⟩⟩
    rintro ⟨a, ha, hid, rfl⟩
    rw [judging_eq (s := s₁) ha hj hid]

end Store

end JudgeQueue
