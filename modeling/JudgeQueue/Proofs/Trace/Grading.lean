import JudgeQueue.Proofs.Trace.Basic
/-!
# Traces of requests — grading

A batch records the first report of each testcase that has no run yet, and
then writes the judging back: ended, with more progress, or not at all. All
three are the one change that grades it.
-/

namespace JudgeQueue

open Transaction

namespace Grading

variable {s : Store}

/-! ## The reports that are recorded -/

theorem mem_of_mem_fresh {seen : List Int} {reports : List RunReport} {p : RunReport}
    (h : p ∈ fresh seen reports) : p ∈ reports ∧ p.testcaseId ∉ seen := by
  induction reports generalizing seen with
  | nil => cases h
  | cons r rest ih =>
    rw [fresh] at h
    split at h
    · obtain ⟨hp, hseen⟩ := ih h
      exact ⟨List.mem_cons_of_mem r hp, hseen⟩
    · next hr =>
      rcases List.mem_cons.mp h with rfl | h
      · exact ⟨List.mem_cons_self, by simpa using hr⟩
      · obtain ⟨hp, hseen⟩ := ih h
        exact ⟨List.mem_cons_of_mem r hp, fun hmem => hseen (List.mem_cons_of_mem _ hmem)⟩

/-- **One report a testcase** is recorded. -/
theorem nodup_fresh (seen : List Int) (reports : List RunReport) :
    ((fresh seen reports).map RunReport.testcaseId).Nodup := by
  induction reports generalizing seen with
  | nil => exact List.nodup_nil
  | cons r rest ih =>
    rw [fresh]
    split
    · exact ih seen
    · refine List.nodup_cons.mpr ⟨fun hmem => ?_, ih _⟩
      obtain ⟨p, hp, hid⟩ := List.mem_map.mp hmem
      exact (mem_of_mem_fresh hp).2 (hid ▸ List.mem_cons_self)

theorem ensures_putOutputs (judgingId runId : Int) (outputs : List (RunOutputKind × Bytes)) :
    (putOutputs judgingId runId outputs).Ensures s fun _ s' => s' = s := by
  induction outputs with
  | nil => exact rfl
  | cons output rest ih =>
    simp only [putOutputs, ensures_bind, ensures_putBlob]
    exact ih

/-- **Recording reports** records the fresh ones, all of testcases that are
known. -/
theorem ensures_recordRuns (judgingId problemId : Int) (testcases : List Testcase) (now : Instant)
    (seen : List Int) (reports : List RunReport) :
    (recordRuns judgingId problemId testcases now seen reports).Ensures s fun text s' =>
      text = fragment (fresh seen reports) ∧
      s' = s.recordRuns judgingId now (fresh seen reports) ∧
      ∀ p ∈ fresh seen reports, ∃ t ∈ testcases, t.id = p.testcaseId := by
  induction reports generalizing s seen with
  | nil => exact ⟨rfl, rfl, fun p hp => by cases hp⟩
  | cons r rest ih =>
    simp only [recordRuns, ensures_bind, ensures_unlessError]
    intro hknown
    split
    · next hseen =>
      rw [fresh, if_pos hseen]
      exact ih seen
    · next hseen =>
      simp only [ensures_bind, ensures_ask, Query.run, ensures_pure]
      refine (ensures_putOutputs _ _ _).mono ?_
      rintro _ _ rfl
      refine (ih (r.testcaseId :: seen)).mono ?_
      rintro text s' ⟨rfl, rfl, hall⟩
      rw [fresh, if_neg hseen]
      refine ⟨rfl, rfl, fun p hp => ?_⟩
      rcases List.mem_cons.mp hp with rfl | hp
      · obtain ⟨t, ht, hid⟩ := List.any_eq_true.mp hknown
        exact ⟨t, ht, of_decide_eq_true hid⟩
      · exact hall p hp

/-! ## The judging -/

/-- The judging after a batch, written to the store in which the runs are
recorded. -/
theorem grade_eq (id problemId : Int) (reports : List RunReport) (now : Instant) :
    s.grade id problemId reports now =
      { s.recordRuns id now reports with
        judgings := (s.recordRuns id now reports).judgings.modify id
          (graded · ((s.recordRuns id now reports).runsOf id) (s.testcasesOf problemId)
            (fragment reports) now)
          (key_graded · _ _ _ now) } := by
  have hjud : (s.recordRuns id now reports).judgings = s.judgings :=
    Store.recordRuns_congr Store.judgings fun _ _ => rfl
  rw [hjud]
  rfl

/-- A judging that its runs complete is ended. -/
theorem graded_of_complete {j : Judging} {runs : List Run} {testcases : List Testcase}
    (h : (Summary.ofRuns runs testcases).isComplete j.fullTest testcases.length = true)
    (text : String) (now : Instant) :
    graded j runs testcases text now =
      finish { j with runVerdicts := j.runVerdicts ++ text } (Summary.ofRuns runs testcases) now :=
  if_pos h

/-- Any other judging gets ahead at most. -/
theorem graded_of_incomplete {j : Judging} {runs : List Run} {testcases : List Testcase}
    (h : ¬ (Summary.ofRuns runs testcases).isComplete j.fullTest testcases.length = true)
    (text : String) (now : Instant) :
    graded j runs testcases text now = { j with runVerdicts := j.runVerdicts ++ text } :=
  if_neg h

/-- Adding progress to a judging that is held. -/
theorem appendRunVerdicts_eq {j : Judging} (hj : j ∈ s.judgings) {text : String}
    {f : Judging → Judging} (hf : ∀ j, key (f j) = key j)
    (h : { j with runVerdicts := j.runVerdicts ++ text } = f j) :
    s.appendRunVerdicts j.id text = .ok { s with judgings := s.judgings.modify j.id f hf } := by
  have hcontains : s.judgings.contains j.id = true := Table.contains_iff.mpr ⟨j, hj, rfl⟩
  rw [Store.appendRunVerdicts, if_pos hcontains]
  congr 2
  refine Table.modify_congr fun a ha hkey => ?_
  rw [Store.judging_eq ha hj hkey]
  exact h

/-- **Recording a batch** grades the judging by the reports that are new, answers
it as it is then, and tells of its end if they complete it. -/
theorem commits_recordBatch {j : Judging} (hj : j ∈ s.judgings) (reports : List RunReport)
    (now : Instant) :
    (recordBatch j reports now).Commits s fun answer es s' =>
      ∃ r ∈ s.submissions, r.id = j.submissionId ∧
        (∀ p ∈ fresh ((s.runsOf j.id).map Run.testcaseId) reports,
          ∃ t ∈ s.testcasesOf r.problemId, t.id = p.testcaseId) ∧
        answer = some (graded j
          ((s.recordRuns j.id now
            (fresh ((s.runsOf j.id).map Run.testcaseId) reports)).runsOf j.id)
          (s.testcasesOf r.problemId)
          (fragment (fresh ((s.runsOf j.id).map Run.testcaseId) reports)) now) ∧
        es = (if (Summary.ofRuns ((s.recordRuns j.id now
            (fresh ((s.runsOf j.id).map Run.testcaseId) reports)).runsOf j.id)
            (s.testcasesOf r.problemId)).isComplete j.fullTest (s.testcasesOf r.problemId).length
          then [.judgingFinished j.id j.submissionId] else []) ∧
        s' = s.grade j.id r.problemId (fresh ((s.runsOf j.id).map Run.testcaseId) reports) now := by
  simp only [recordBatch, commits_bind, ensures_loadSubmission, ensures_ask, Query.run]
  intro r hr
  obtain ⟨hrmem, hrid⟩ := Store.mem_of_find?_submission hr
  refine (ensures_recordRuns j.id r.problemId _ now _ reports).mono ?_
  rintro text _ ⟨rfl, rfl, hknown⟩
  generalize fresh ((s.runsOf j.id).map Run.testcaseId) reports = recorded at hknown ⊢
  have hgrade := grade_eq (s := s) j.id r.problemId recorded now
  have hmem : j ∈ (s.recordRuns j.id now recorded).judgings := by
    have hjud : (s.recordRuns j.id now recorded).judgings = s.judgings :=
      Store.recordRuns_congr Store.judgings fun _ _ => rfl
    rw [hjud]
    exact hj
  generalize s.recordRuns j.id now recorded = s₁ at hgrade hmem ⊢
  have hkey := (key_graded · (s₁.runsOf j.id) (s.testcasesOf r.problemId) (fragment recorded) now)
  split
  · next hcomplete =>
    have hgraded := graded_of_complete hcomplete (fragment recorded) now
    have hwrite := Store.updateJudging_eq
      (j := finish { j with runVerdicts := j.runVerdicts ++ fragment recorded }
        (Summary.ofRuns (s₁.runsOf j.id) (s.testcasesOf r.problemId)) now)
      hmem rfl hkey hgraded.symm
    simp only [commits_bind, ensures_ask, Query.run]
    rw [hwrite]
    exact commits_commit.mpr ⟨r, hrmem, hrid, hknown, congrArg some hgraded.symm,
      (if_pos hcomplete).symm, hgrade.symm⟩
  · next hincomplete =>
    have hgraded := graded_of_incomplete hincomplete (fragment recorded) now
    split
    · next hempty =>
      -- nothing was recorded, and the judging stays as it is
      have hstays : graded j (s₁.runsOf j.id) (s.testcasesOf r.problemId) (fragment recorded) now =
          j := by
        rw [hgraded, String.isEmpty_iff.mp hempty, String.append_empty]
      have hsame : s₁.judgings.modify j.id _ hkey = s₁.judgings := by
        refine Table.update_eq_self fun a ha hid => ?_
        rw [Store.judging_eq ha hmem (of_decide_eq_true hid), hstays]
      rw [hsame] at hgrade
      exact commits_commit.mpr ⟨r, hrmem, hrid, hknown, congrArg some hstays.symm,
        (if_neg hincomplete).symm, hgrade.symm⟩
    · simp only [commits_bind, ensures_ask, Query.run]
      rw [appendRunVerdicts_eq hmem hkey hgraded.symm]
      exact commits_commit.mpr ⟨r, hrmem, hrid, hknown, congrArg some hgraded.symm,
        (if_neg hincomplete).symm, hgrade.symm⟩

/-- Recording a batch is the change that grades the judging. -/
theorem traces_recordBatch {j : Judging} {hostname : String} (hj : j ∈ s.judgings)
    (hheld : j.isClaimedBy hostname = true) {reports : List RunReport}
    (hverdict : ∀ p ∈ reports, p.verdict.isRunVerdict = true) (now : Instant) :
    (recordBatch j reports now).Traces now s := by
  refine (commits_recordBatch hj reports now).mono ?_
  rintro _ _ _ ⟨r, hr, hid, hknown, -, rfl, rfl⟩
  generalize hrecorded : fresh ((s.runsOf j.id).map Run.testcaseId) reports = recorded at hknown ⊢
  have hfresh : ∀ p ∈ recorded, p ∈ reports ∧ ∀ n ∈ s.runsOf j.id, n.testcaseId ≠ p.testcaseId := by
    intro p hp
    obtain ⟨hmem, hseen⟩ := mem_of_mem_fresh (hrecorded ▸ hp)
    exact ⟨hmem, fun n hn hid => hseen (hid ▸ List.mem_map_of_mem hn)⟩
  have hnodup : (recorded.map RunReport.testcaseId).Nodup := hrecorded ▸ nodup_fresh _ reports
  exact .of_change (.grade hj hheld hr hid.symm (fun p hp => hverdict p (hfresh p hp).1) hknown
    (fun p hp => (hfresh p hp).2) hnodup)

theorem traces_reportRuns (hs : s.Sound) (hostname : String) (judgingId : Int)
    (reports : List RunReport) (now : Instant) :
    (reportRuns hostname judgingId reports now).Traces now s := by
  unfold reportRuns
  split
  · exact traces_fail _
  · next hnone =>
    have hverdict : ∀ p ∈ reports, p.verdict.isRunVerdict = true := by
      intro p hp
      simpa using List.find?_eq_none.mp hnone p hp
    refine traces_heartbeat hs fun t b ht hhost => ?_
    cases b with
    | false => exact traces_commit none
    | true =>
      simp only [Bool.not_true, Bool.false_eq_true, if_false, Traces, commits_bind,
        ensures_loadJudging]
      intro j hj
      obtain ⟨hmem, -⟩ := Store.mem_of_find?_judging hj
      split
      · next hheld => exact traces_recordBatch hmem hheld hverdict now
      · exact traces_commit none

end Grading

end JudgeQueue
