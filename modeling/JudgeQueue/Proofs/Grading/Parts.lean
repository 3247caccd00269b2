import JudgeQueue.Proofs.Grading.Batch
import JudgeQueue.Proofs.Recovery.Cancel
/-!
# Grading — reports in parts

What a batch has recorded counts for the next one as what had been recorded
before. So reports come to the same at once as in two parts, as long as the
first part does not end the judging. A part that only repeats the testcases of
earlier ones has nothing to record, and leaves the judging as it stands.
-/

namespace JudgeQueue

open Transaction

namespace Grading

variable {seen seen' : List Int} {reports first rest : List RunReport} {p : RunReport}

/-! ## What is fresh after a part -/

/-- Which testcases have been seen counts, not in which order or how often. -/
theorem fresh_congr (h : ∀ id, id ∈ seen ↔ id ∈ seen') (reports : List RunReport) :
    fresh seen reports = fresh seen' reports := by
  induction reports generalizing seen seen' with
  | nil => rfl
  | cons r rest ih =>
    have hcontains : seen.contains r.testcaseId = seen'.contains r.testcaseId := by
      rw [Bool.eq_iff_iff, List.contains_iff_mem, List.contains_iff_mem, h]
    have hcons : ∀ id, id ∈ r.testcaseId :: seen ↔ id ∈ r.testcaseId :: seen' := fun id => by
      rw [List.mem_cons, List.mem_cons, h]
    rw [fresh, fresh, hcontains, ih h, ih hcons]

/-- **What is recorded of two parts** is what is recorded of the first, and of
the second what the first has not recorded. -/
theorem fresh_append (seen : List Int) (first rest : List RunReport) :
    fresh seen (first ++ rest) = fresh seen first ++
      fresh (seen ++ (fresh seen first).map RunReport.testcaseId) rest := by
  induction first generalizing seen with
  | nil =>
    rw [fresh, List.map_nil, List.append_nil]
    rfl
  | cons r first ih =>
    rw [List.cons_append, fresh, fresh]
    split
    · exact ih seen
    · have hsame : ∀ id,
          id ∈ r.testcaseId :: seen ++ (fresh (r.testcaseId :: seen) first).map
            RunReport.testcaseId ↔
          id ∈ seen ++ (r :: fresh (r.testcaseId :: seen) first).map RunReport.testcaseId := by
        intro id
        simp only [List.cons_append, List.map_cons, List.mem_cons, List.mem_append]
        exact or_left_comm
      rw [ih, fresh_congr hsame, List.cons_append]

/-- Every testcase that is reported on has been seen or is recorded. -/
theorem mem_seen_append_fresh (seen : List Int) (reports : List RunReport) :
    ∀ p ∈ reports, p.testcaseId ∈ seen ++ (fresh seen reports).map RunReport.testcaseId := by
  intro p hp
  rw [List.mem_append, map_testcaseId_fresh, List.mem_filter, List.mem_eraseDups]
  by_cases hseen : p.testcaseId ∈ seen
  · exact .inl hseen
  · exact .inr ⟨List.mem_map_of_mem hp, by simpa using hseen⟩

/-- Nothing is recorded of testcases that have been seen. -/
theorem fresh_of_seen (h : ∀ p ∈ reports, p.testcaseId ∈ seen) : fresh seen reports = [] := by
  refine List.eq_nil_iff_forall_not_mem.mpr fun p hp => ?_
  obtain ⟨hmem, hnot⟩ := mem_of_mem_fresh hp
  exact hnot (h p hmem)

/-! ## What two parts leave -/

theorem fragment_append (first rest : List RunReport) :
    fragment (first ++ rest) = fragment first ++ fragment rest := by
  induction first with
  | nil => exact String.empty_append.symm
  | cons r first ih => rw [List.cons_append, fragment, ih, fragment, String.append_assoc]

/-- The output of the second part goes to the runs after those of the first. -/
theorem outputEntries_append (judgingId last : Int) (first rest : List RunReport) :
    outputEntries judgingId last (first ++ rest) = outputEntries judgingId last first ++
      outputEntries judgingId (last + first.length) rest := by
  induction first generalizing last with
  | nil =>
    rw [List.length_nil, Int.natCast_zero, Int.add_zero]
    rfl
  | cons r first ih =>
    have hlast : last + 1 + first.length = last + (r :: first).length := by
      rw [List.length_cons, Int.natCast_succ]
      omega
    rw [List.cons_append, outputEntries, ih, hlast, outputEntries, List.append_assoc]

/-- Progress that is written in parts is graded as if it were written at
once. -/
theorem graded_append (j : Judging) (runs : List Run) (testcases : List Testcase)
    (text more : String) (now : Instant) :
    graded { j with runVerdicts := j.runVerdicts ++ text } runs testcases more now =
      graded j runs testcases (text ++ more) now := by
  unfold graded
  simp only [String.append_assoc]

end Grading

namespace Store

variable {s : Store} {j : Judging} {r : Submission} {hostname : String} {now : Instant}

theorem recordRuns_append (s : Store) (id : Int) (now : Instant) (first rest : List RunReport) :
    s.recordRuns id now (first ++ rest) = (s.recordRuns id now first).recordRuns id now rest :=
  List.foldl_append

/-- **A batch is seen** by the next one, besides what has been seen before. -/
theorem testcases_recordRuns (hle : ∀ n ∈ s.runs, n.id ≤ s.lastRun) (id : Int) (now : Instant)
    (reports : List RunReport) :
    ((s.recordRuns id now reports).runsOf id).map Run.testcaseId =
      (s.runsOf id).map Run.testcaseId ++ reports.map RunReport.testcaseId := by
  have hruns := congrArg (List.map NewRun.testcaseId) (unrecorded_recordRuns hle id id now reports)
  rw [if_pos rfl, List.map_append, List.map_map, List.map_map, List.map_map] at hruns
  exact hruns

/-- What is recorded next does not depend on how the judging has been graded. -/
theorem recordRuns_grade (s : Store) (id problemId : Int) (first rest : List RunReport)
    (now : Instant) :
    (s.grade id problemId first now).recordRuns id now rest =
      { s.recordRuns id now (first ++ rest) with
        judgings := (s.grade id problemId first now).judgings } := by
  rw [recordRuns_append]
  exact recordRuns_comm
    (F := fun t => { t with judgings := (s.grade id problemId first now).judgings })
    (fun _ _ => rfl) _ id now rest

/-- **Grading in parts** comes to grading at once, if the first part leaves the
judging open. -/
theorem grade_append (hj : j ∈ s.judgings) {problemId : Int} {first : List RunReport}
    (hopen : Grading.graded j ((s.recordRuns j.id now first).runsOf j.id)
      (s.testcasesOf problemId) (Grading.fragment first) now =
      { j with runVerdicts := j.runVerdicts ++ Grading.fragment first })
    (rest : List RunReport) :
    (s.grade j.id problemId first now).grade j.id problemId rest now =
      s.grade j.id problemId (first ++ rest) now := by
  have hrecord := s.recordRuns_grade j.id problemId first rest now
  have htestcases := s.testcasesOf_grade j.id problemId problemId first now
  have hwhole : (s.recordRuns j.id now (first ++ rest)).judgings = s.judgings :=
    recordRuns_congr judgings fun _ _ => rfl
  rw [Grading.grade_eq (s := s.grade j.id problemId first now),
    Grading.grade_eq j.id problemId (first ++ rest), hrecord, htestcases, hwhole]
  refine congrArg (fun t => { s.recordRuns j.id now (first ++ rest) with judgings := t }) ?_
  refine Table.modify_modify (Grading.key_graded · _ _ _ now) (Grading.key_graded · _ _ _ now)
    (Grading.key_graded · _ _ _ now) fun i hi hid => ?_
  rw [judging_eq hi hj hid, hopen]
  exact (Grading.graded_append j _ _ _ _ now).trans (by rw [Grading.fragment_append]; rfl)

/-- A judgehost that is heard of twice was last heard of then. -/
theorem touchJudgehost_touchJudgehost (s : Store) (hostname : String) (earlier now : Instant) :
    (s.touchJudgehost hostname earlier).touchJudgehost hostname now =
      s.touchJudgehost hostname now := by
  let heard (t : Instant) (h : Judgehost) : Judgehost := { h with pollTime := some t }
  have hhosts := Table.modify_modify (t := s.judgehosts) (k := hostname) (f := heard earlier)
    (g := heard now) (e := heard now) (fun _ => rfl) (fun _ => rfl) (fun _ => rfl) fun _ _ _ => rfl
  exact congrArg (fun t => { s with judgehosts := t }) hhosts

/-- A heartbeat and a batch may change places. -/
theorem touchJudgehost_grade (s : Store) (id problemId : Int) (reports : List RunReport)
    (hostname : String) (heard now : Instant) :
    (s.touchJudgehost hostname heard).grade id problemId reports now =
      (s.grade id problemId reports now).touchJudgehost hostname heard := by
  have hrecord := recordRuns_comm (F := (·.touchJudgehost hostname heard)) (fun _ _ => rfl) s id now
    reports
  rw [Grading.grade_eq, Grading.grade_eq, hrecord]
  rfl

/-- The judging that a batch is about is there as it has been graded. -/
theorem graded_mem_grade (hj : j ∈ s.judgings) (problemId : Int) (reports : List RunReport)
    (now : Instant) :
    Grading.graded j ((s.recordRuns j.id now reports).runsOf j.id) (s.testcasesOf problemId)
      (Grading.fragment reports) now ∈ (s.grade j.id problemId reports now).judgings := by
  rw [grade, Table.mem_modify]
  exact .inl ⟨j, hj, rfl, rfl⟩

end Store

/-! ## Two parts and their whole -/

namespace Grading

section Parts

variable {w : World} {j : Judging} {r : Submission} {first rest : List RunReport} {b : Blobs}

/-- **A batch in two parts** comes to the same as at once, if the first part leaves
the judging open. Then it is the second that tells of the end, if there is one. -/
theorem run_recordBatch_append (hle : ∀ n ∈ w.store.runs, n.id ≤ w.store.lastRun)
    (hj : j ∈ w.store.judgings) (hr : r ∈ w.store.submissions) (hsub : j.submissionId = r.id)
    (hknown : ∀ p ∈ first ++ rest, ∃ t ∈ w.store.testcasesOf r.problemId, t.id = p.testcaseId)
    (hput : w.blobs.putAll (outputEntries j.id w.store.lastRun
      (fresh ((w.store.runsOf j.id).map Run.testcaseId) (first ++ rest))) = .ok b)
    (now : Instant) :
    ∃ i es recorded b₁, (recordBatch j first now).run w =
        (.ok (.commit (some i) es), ⟨w.store.grade j.id r.problemId recorded now, b₁⟩) ∧
      i ∈ (w.store.grade j.id r.problemId recorded now).judgings ∧ i.id = j.id ∧
      (i.isClaimed = true → es = [] ∧ i.server = j.server ∧ ∃ i' es' w',
        (recordBatch i rest now).run ⟨w.store.grade j.id r.problemId recorded now, b₁⟩ =
          (.ok (.commit (some i') es'), w') ∧
        (recordBatch j (first ++ rest) now).run w = (.ok (.commit (some i') es'), w')) := by
  have hwhole := run_recordBatch hj hr hsub hknown rfl hput now
  rw [fresh_append] at hput hwhole
  rw [outputEntries_append] at hput
  rw [List.forall_mem_append] at hknown
  obtain ⟨hknown₁, hknown₂⟩ := hknown
  obtain ⟨b₁, hput₁, hput₂⟩ := Blobs.exists_of_putAll_append hput
  have hpart := run_recordBatch hj hr hsub hknown₁ rfl hput₁ now
  generalize fresh ((w.store.runsOf j.id).map Run.testcaseId) first = recorded at *
  have hmem := Store.graded_mem_grade hj r.problemId recorded now
  have hruns : ((w.store.grade j.id r.problemId recorded now).runsOf j.id).map Run.testcaseId =
      (w.store.runsOf j.id).map Run.testcaseId ++ recorded.map RunReport.testcaseId :=
    Store.testcases_recordRuns hle j.id now recorded
  have hlast : (w.store.grade j.id r.problemId recorded now).lastRun =
      w.store.lastRun + recorded.length := by
    obtain ⟨runs, hrecord⟩ := w.store.exists_recordRuns j.id now recorded
    exact congrArg Store.lastRun hrecord
  have hsubmissions := w.store.submissions_grade j.id r.problemId recorded now
  have htestcases := w.store.testcasesOf_grade j.id r.problemId r.problemId recorded now
  refine ⟨_, _, recorded, b₁, hpart, hmem, key_graded j _ _ _ now, fun hclaimed => ?_⟩
  -- the first part has left the judging open
  have hincomplete : ¬ (Summary.ofRuns ((w.store.recordRuns j.id now recorded).runsOf j.id)
      (w.store.testcasesOf r.problemId)).isComplete j.fullTest
        (w.store.testcasesOf r.problemId).length = true := by
    intro hcomplete
    rw [graded_of_complete hcomplete] at hclaimed
    cases hclaimed
  have hopen := graded_of_incomplete hincomplete (fragment recorded) now
  rw [hopen] at hmem ⊢
  refine ⟨if_neg hincomplete, rfl, ?_⟩
  generalize hsecond : fresh ((w.store.runsOf j.id).map Run.testcaseId ++
    recorded.map RunReport.testcaseId) rest = recorded₂ at hput₂ hwhole
  have hrest := run_recordBatch (w := ⟨w.store.grade j.id r.problemId recorded now, b₁⟩) hmem
    (hsubmissions ▸ hr) hsub (htestcases ▸ hknown₂) ((congrArg (fresh · rest) hruns).trans hsecond)
    (hlast ▸ hput₂) now
  refine ⟨_, _, _, hrest, hwhole.trans ?_⟩
  simp only [Store.recordRuns_grade, htestcases, Store.grade_append hj hopen, graded_append,
    fragment_append]
  rfl

/-- **A batch that falls short** of the testcases leaves open a judging that is graded
in full, with more progress. -/
theorem run_recordBatch_of_lt (hj : j ∈ w.store.judgings) (hr : r ∈ w.store.submissions)
    (hsub : j.submissionId = r.id) {reports recorded : List RunReport}
    (hknown : ∀ p ∈ reports, ∃ t ∈ w.store.testcasesOf r.problemId, t.id = p.testcaseId)
    (hrecorded : fresh ((w.store.runsOf j.id).map Run.testcaseId) reports = recorded)
    (hput : w.blobs.putAll (outputEntries j.id w.store.lastRun recorded) = .ok b)
    (hfull : j.fullTest = true) (now : Instant)
    (hshort : ((w.store.recordRuns j.id now recorded).runsOf j.id).length <
      (w.store.testcasesOf r.problemId).length) :
    ∃ i w₁, (recordBatch j reports now).run w = (.ok (.commit (some i) []), w₁) ∧
      i ∈ w₁.store.judgings ∧ i = { j with runVerdicts := j.runVerdicts ++ fragment recorded } := by
  have hrun := run_recordBatch hj hr hsub hknown hrecorded hput now
  have hmem := Store.graded_mem_grade hj r.problemId recorded now
  have hincomplete := Summary.not_isComplete_of_lt hshort hfull
  have htold : told j ((w.store.recordRuns j.id now recorded).runsOf j.id)
      (w.store.testcasesOf r.problemId) = [] := if_neg hincomplete
  rw [htold] at hrun
  exact ⟨_, _, hrun, hmem, graded_of_incomplete hincomplete _ now⟩

end Parts

end Grading

/-! ## Reports that have been taken -/

/-- Some reports have been taken on a judging. It has ended, or else it stays with
its judgehost and every testcase that was reported on has its run. -/
structure Store.HasTaken (s : Store) (hostname : String) (j : Judging) (reports : List RunReport) :
    Prop where
  judging : j ∈ s.judgings
  held : j.isFinalized = false → j.isClaimedBy hostname = true ∧ s.admits hostname = true
  seen : j.isFinalized = false →
    ∀ p ∈ reports, p.testcaseId ∈ (s.runsOf j.id).map Run.testcaseId

section Taken

variable {s : Store} {w : World} {hostname : String} {j : Judging} {reports again : List RunReport}

/-- They stay taken while the judgehost is heard of. -/
theorem Store.HasTaken.touchJudgehost (h : s.HasTaken hostname j reports) (now : Instant) :
    (s.touchJudgehost hostname now).HasTaken hostname j reports := by
  refine ⟨h.judging, fun hopen => ?_, h.seen⟩
  rw [Store.admits_touchJudgehost]
  exact h.held hopen

/-- **A batch that is recorded has been taken.** -/
theorem Store.hasTaken_grade (hle : ∀ n ∈ s.runs, n.id ≤ s.lastRun) (hj : j ∈ s.judgings)
    (hheld : j.isClaimedBy hostname = true) (hmay : s.admits hostname = true) (problemId : Int)
    {recorded : List RunReport}
    (hrecorded : Grading.fresh ((s.runsOf j.id).map Run.testcaseId) reports = recorded)
    (now : Instant) :
    (s.grade j.id problemId recorded now).HasTaken hostname
      (Grading.graded j ((s.recordRuns j.id now recorded).runsOf j.id) (s.testcasesOf problemId)
        (Grading.fragment recorded) now) reports := by
  refine ⟨graded_mem_grade hj problemId recorded now, fun hopen => ?held, fun _ p hp => ?seen⟩
  case held =>
    rw [Store.admits, judgehosts_grade]
    refine ⟨?_, hmay⟩
    by_cases hcomplete : (Summary.ofRuns ((s.recordRuns j.id now recorded).runsOf j.id)
        (s.testcasesOf problemId)).isComplete j.fullTest (s.testcasesOf problemId).length = true
    · rw [Grading.graded_of_complete hcomplete] at hopen
      cases hopen
    · rw [Grading.graded_of_incomplete hcomplete]
      exact hheld
  case seen =>
    have hseen := Grading.mem_seen_append_fresh ((s.runsOf j.id).map Run.testcaseId) reports p hp
    rw [hrecorded, ← testcases_recordRuns hle j.id now] at hseen
    rw [(graded_eq j _ _ _ now).1]
    exact hseen

/-- **A report of runs has been taken** once it answers the judging. -/
theorem Grading.commits_reportRuns_taken (hle : ∀ n ∈ s.runs, n.id ≤ s.lastRun)
    (hostname : String) (id : Int) (reports : List RunReport) (now : Instant) :
    (reportRuns hostname id reports now).Commits s fun answer _ s' =>
      ∀ j, answer = some j → j.id = id ∧ s'.HasTaken hostname j reports := by
  unfold reportRuns
  split
  · exact commits_fail
  · rw [commits_bind, ensures_heartbeat]
    cases hmay : s.admits hostname with
    | false => exact commits_commit.mpr fun j hj => by cases hj
    | true =>
      simp only [Bool.not_true, Bool.false_eq_true, if_false, commits_bind, ensures_loadJudging]
      intro j hj
      obtain ⟨hmem, rfl⟩ := Store.mem_of_find?_judging hj
      split
      · next hheld =>
        refine (commits_recordBatch hmem reports now).mono ?_
        rintro _ _ _ ⟨r, -, -, -, rfl, -, rfl⟩ j' hj'
        cases hj'
        have hmay : (s.touchJudgehost hostname now).admits hostname = true :=
          (Store.admits_touchJudgehost hostname now).trans hmay
        exact ⟨key_graded j _ _ _ now, Store.hasTaken_grade (s := s.touchJudgehost hostname now) hle
          hmem hheld hmay r.problemId rfl now⟩
      · exact commits_commit.mpr fun j hj => by cases hj

/-- Grading by no reports leaves a store as it is. -/
theorem Store.grade_nil (hj : j ∈ s.judgings) {problemId : Int} {now : Instant}
    (hopen : Grading.graded j (s.runsOf j.id) (s.testcasesOf problemId) "" now = j) :
    s.grade j.id problemId [] now = s := by
  have hsame : s.judgings.modify j.id
      (Grading.graded · (s.runsOf j.id) (s.testcasesOf problemId) "" now)
      (Grading.key_graded · _ _ _ now) = s.judgings :=
    Table.update_eq_self fun i hi hid => by rw [judging_eq hi hj (of_decide_eq_true hid), hopen]
  exact congrArg (fun t => { s with judgings := t }) hsame

/-- **Reports of testcases that have been taken** have no effect: if the judging is
still held it is answered as it stands, and otherwise they are ignored. -/
theorem Store.HasTaken.run_reportRuns (h : w.store.HasTaken hostname j reports)
    (hs : w.store.Sound) (hg : w.store.Graded)
    (hverdict : ∀ p ∈ again, p.verdict.isRunVerdict = true)
    (hagain : ∀ p ∈ again, ∃ q ∈ reports, q.testcaseId = p.testcaseId) (now : Instant) :
    (Grading.reportRuns hostname j.id again now).run w =
      (.ok (.commit (if j.isFinalized then none else some j) []),
        { w with store := w.store.touchJudgehost hostname now }) := by
  cases hfin : j.isFinalized with
  | true =>
    have hfree : j.isClaimedBy hostname = false := by
      rw [Judging.isClaimedBy, Judging.isClaimed, Judging.isFinalized_iff.mp hfin]
      rfl
    exact Grading.run_reportRuns_of_not_held h.judging hfree hverdict now
  | false =>
    obtain ⟨hheld, hmay⟩ := h.held hfin
    obtain ⟨r, hr, hsub⟩ := hs.numbered.owned j h.judging
    have hcovers := hg.filed.covers hs.runs h.judging hr hsub.symm
    have hopen : ¬ w.store.IsDecided j :=
      (hg.rated j h.judging).undecided (Judging.lifecycle_of_isClaimedBy hheld)
    rw [← hg.filed.isComplete_iff hs.runs h.judging hr hsub.symm] at hopen
    have hstays := Grading.graded_of_incomplete hopen "" now
    rw [String.append_empty] at hstays
    -- what is reported on has its run, so it is known and there is nothing to record
    have hseen : ∀ p ∈ again, p.testcaseId ∈ (w.store.runsOf j.id).map Run.testcaseId := by
      intro p hp
      obtain ⟨q, hq, hid⟩ := hagain p hp
      exact hid ▸ h.seen hfin q hq
    have hknown : ∀ p ∈ again, ∃ t ∈ w.store.testcasesOf r.problemId, t.id = p.testcaseId := by
      intro p hp
      obtain ⟨n, hn, hid⟩ := List.mem_map.mp (hseen p hp)
      rw [← hid]
      exact hcovers.known n hn
    have hnone : Grading.fresh ((w.store.runsOf j.id).map Run.testcaseId) again = [] :=
      Grading.fresh_of_seen hseen
    have hrun := Grading.run_recordBatch
      (w := { w with store := w.store.touchJudgehost hostname now }) h.judging hr hsub.symm hknown
      hnone rfl now
    have hanswer : Grading.graded j
        (((w.store.touchJudgehost hostname now).recordRuns j.id now []).runsOf j.id)
        ((w.store.touchJudgehost hostname now).testcasesOf r.problemId) (Grading.fragment []) now =
        j := hstays
    have htold : Grading.told j
        (((w.store.touchJudgehost hostname now).recordRuns j.id now []).runsOf j.id)
        ((w.store.touchJudgehost hostname now).testcasesOf r.problemId) = [] := if_neg hopen
    have hstore : (w.store.touchJudgehost hostname now).grade j.id r.problemId [] now =
        w.store.touchJudgehost hostname now :=
      grade_nil (s := w.store.touchJudgehost hostname now) h.judging hstays
    rw [hanswer, htold, hstore] at hrun
    exact (Grading.run_reportRuns_of_held hmay h.judging hheld hverdict now).trans hrun

end Taken

end JudgeQueue
