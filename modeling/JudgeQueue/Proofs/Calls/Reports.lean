import JudgeQueue.Proofs.Calls.Ruling
import JudgeQueue.Proofs.Grading.Run
/-!
# Calls of judgehosts — reports follow their rulings

Without faults a report is answered as it is ruled on, and leaves the store as
the ruling says. What else is in the store shows only in the ids of the new
runs.
-/

namespace JudgeQueue

open Transaction

/-! ## What a ruling leaves to chance

Judgings are graded by all of their runs but the ids. -/

namespace Summary

/-- A summary is the same whichever ids the runs have. -/
theorem ofRuns_unrecorded (runs : List Run) (testcases : List Testcase) :
    ofRuns ((runs.map Run.unrecorded).map (·.recorded 0)) testcases = ofRuns runs testcases := by
  simp only [ofRuns, points, List.map_map, List.length_map, List.filter_map, List.filterMap_map]
  rfl

theorem ofRuns_congr {runs runs' : List Run}
    (h : runs'.map Run.unrecorded = runs.map Run.unrecorded) (testcases : List Testcase) :
    ofRuns runs' testcases = ofRuns runs testcases := by
  rw [← ofRuns_unrecorded runs', h, ofRuns_unrecorded]

end Summary

namespace Grading

theorem graded_congr {runs runs' : List Run}
    (h : runs'.map Run.unrecorded = runs.map Run.unrecorded) (j : Judging)
    (testcases : List Testcase) (text : String) (now : Instant) :
    graded j runs' testcases text now = graded j runs testcases text now := by
  rw [graded, graded, Summary.ofRuns_congr h]

end Grading

/-! ## Requests that follow their rulings -/

namespace Transaction

variable {w : World} {hostname : String} {now : Instant} {ruling : Ruling}

/-- A program goes the way of a ruling on a store: it fails with the error, or it
commits the answer and leaves the store as the ruling says. -/
def Follows (x : Transaction (Ending (Option Judging))) (w : World) (ruling : Ruling)
    (hostname : String) (now : Instant) (s : Store) : Prop :=
  match ruling with
  | .refused e => ∃ w', x.run w = (.error e, w')
  | .heard row recorded => ∃ (es : List Event) (b : Blobs),
      x.run w = (.ok (.commit row es), ⟨(Ruling.heard row recorded).apply hostname now s, b⟩)

/-- A program that commits goes the way of the ruling that leaves the same
store. -/
theorem follows_of_commit {x : Transaction (Ending (Option Judging))} {row : Option Judging}
    {recorded : List RunReport} {es : List Event} {w' : World} {s : Store}
    (h : x.run w = (.ok (.commit row es), w'))
    (hstore : w'.store = (Ruling.heard row recorded).apply hostname now s) :
    x.Follows w (.heard row recorded) hostname now s := by
  refine ⟨es, w'.blobs, ?_⟩
  rw [h, ← hstore]

/-- What a program comes to is what it comes to further on. -/
theorem Follows.of_run {x y : Transaction (Ending (Option Judging))} {v : World} {s : Store}
    (h : y.Follows v ruling hostname now s) (hrun : x.run w = y.run v) :
    x.Follows w ruling hostname now s := by
  cases ruling with
  | refused e =>
    obtain ⟨w', hw'⟩ := h
    exact ⟨w', hrun.trans hw'⟩
  | heard row recorded =>
    obtain ⟨es, b, hb⟩ := h
    exact ⟨es, b, hrun.trans hb⟩

/-- **A report is ruled on** after the heartbeat, by whether the judging is there
and the judgehost holds it. -/
theorem follows_ruleOn {id : Int} {f : Bool → Transaction (Ending (Option Judging))}
    {g : Judging → Transaction (Ending (Option Judging))} {onHeld : Judging → List Run → Ruling}
    (hfalse : f false = commit none []) (htrue : f true = loadJudging id >>= g)
    (hfree : ∀ j, j.isClaimedBy hostname = false → g j = commit none [])
    (hheld : ∀ j ∈ w.store.judgings, j.id = id → j.isClaimedBy hostname = true →
      (g j).Follows { w with store := w.store.touchJudgehost hostname now }
        (onHeld j (w.store.runsOf id)) hostname now w.store) :
    (heartbeat hostname now >>= f).Follows w ((w.store.brief hostname).ruleOn id onHeld) hostname
      now w.store := by
  refine Follows.of_run (v := { w with store := w.store.touchJudgehost hostname now }) ?_
    (run_bind (run_heartbeat hostname now))
  have hignored : (commit none [] : Transaction (Ending (Option Judging))).Follows
      { w with store := w.store.touchJudgehost hostname now } .ignored hostname now w.store :=
    ⟨[], w.blobs, rfl⟩
  cases hfind : w.store.judgings.find? id with
  | none =>
    rw [Store.ruleOn_brief_of_unknown hfind]
    cases w.store.admits hostname with
    | false => exact hfalse ▸ hignored
    | true =>
      refine ⟨{ w with store := w.store.touchJudgehost hostname now }, ?_⟩
      rw [htrue]
      exact run_bind_error (run_loadJudging_of_unknown hfind)
  | some j =>
    rw [Store.ruleOn_brief hfind]
    cases w.store.admits hostname with
    | false => exact hfalse ▸ hignored
    | true =>
      obtain ⟨hj, rfl⟩ := Store.mem_of_find?_judging hfind
      have hload : (loadJudging j.id).run
          { w with store := w.store.touchJudgehost hostname now } = (.ok j, _) :=
        run_loadJudging hj
      refine Follows.of_run (y := g j)
        (v := { w with store := w.store.touchJudgehost hostname now }) ?_ ?_
      · rw [if_pos rfl]
        cases hclaimed : j.isClaimedBy hostname with
        | false => exact (hfree j hclaimed).symm ▸ hignored
        | true => exact hheld j hj rfl hclaimed
      · rw [htrue]
        exact run_bind hload

end Transaction

/-! ## Both kinds of reports -/

variable {w : World} {hostname : String} {now : Instant}

namespace Dispatch

/-- A report on compiling follows its ruling. -/
theorem follows_reportCompilation (w : World) (hostname : String) (judgingId : Int)
    (success : Bool) (output : String) (now : Instant) :
    (reportCompilation hostname judgingId success output now).Follows w
      ((w.store.brief hostname).rule now (.compilation judgingId success output)) hostname now
      w.store := by
  refine follows_ruleOn rfl rfl (fun j hfree => by rw [hfree]; rfl) fun j hj _ hheld => ?_
  have hwrite := updateJudging_compiled (s := w.store.touchJudgehost hostname now) hj success output
    now
  have hinsert : w.store.judgings.modify j.id (compiled · success output now)
      (fun i => key_compiled i success output now) =
      w.store.judgings.insert (compiled j success output now) :=
    Table.modify_eq_insert _ hj rfl
  have hstore : (w.store.touchJudgehost hostname now).compile j.id success output now =
      (Ruling.heard (some (compiled j success output now)) []).apply hostname now w.store :=
    congrArg (fun t => { w.store.touchJudgehost hostname now with judgings := t }) hinsert
  rw [hheld, Bool.not_true, if_neg Bool.false_ne_true]
  exact follows_of_commit (run_bind (Grading.run_updateJudging hwrite)) hstore

end Dispatch

namespace Grading

variable {j : Judging}

/-- But for their ids the runs of a judging are known before they are
recorded. -/
theorem unrecorded_added {s : Store} (hle : ∀ n ∈ s.runs, n.id ≤ s.lastRun) (id : Int)
    (recorded : List RunReport) :
    ((s.recordRuns id now recorded).runsOf id).map Run.unrecorded =
      (s.runsOf id ++ recorded.map fun p => (RunReport.toRun p id now).recorded 0).map
        Run.unrecorded := by
  rw [Store.unrecorded_recordRuns hle, if_pos rfl, List.map_append, List.map_map]
  rfl

/-- Grading a judging writes it with its new runs. -/
theorem grade_touchJudgehost {s : Store} (hj : j ∈ s.judgings) (problemId : Int)
    (recorded : List RunReport) :
    (s.touchJudgehost hostname now).grade j.id problemId recorded now =
      (Ruling.heard
        (some (graded j (((s.touchJudgehost hostname now).recordRuns j.id now recorded).runsOf j.id)
          (s.testcasesOf problemId) (fragment recorded) now))
        recorded).apply hostname now s := by
  generalize hruns : ((s.touchJudgehost hostname now).recordRuns j.id now recorded).runsOf j.id =
    runs
  have hinsert : s.judgings.modify j.id
      (graded · runs (s.testcasesOf problemId) (fragment recorded) now)
      (fun i => key_graded i _ _ _ now) =
      s.judgings.insert (graded j runs (s.testcasesOf problemId) (fragment recorded) now) :=
    Table.modify_eq_insert _ hj rfl
  have hid : (graded j runs (s.testcasesOf problemId) (fragment recorded) now).id = j.id :=
    key_graded j _ _ _ now
  rw [Ruling.apply, hid, ← hinsert, ← hruns]
  rfl

/-- A batch follows its ruling, as long as its output is taken. -/
theorem follows_recordBatch (hb : w.blobs.TakesAll)
    (hle : ∀ n ∈ w.store.runs, n.id ≤ w.store.lastRun) (hj : j ∈ w.store.judgings)
    (reports : List RunReport) :
    (recordBatch j reports now).Follows
      { w with store := w.store.touchJudgehost hostname now }
      ((w.store.brief hostname).ruleOnBatch j (w.store.runsOf j.id) reports now) hostname now
      w.store := by
  -- the heartbeat leaves alone what a batch goes by
  let w₁ : World := { w with store := w.store.touchJudgehost hostname now }
  change (recordBatch j reports now).Follows w₁ _ hostname now w.store
  unfold Brief.ruleOnBatch
  cases hfind : w.store.submissions.find? j.submissionId with
  | none =>
    have hnone : (w.store.brief hostname).submissions.find? j.submissionId = none := hfind
    rw [hnone]
    exact ⟨w₁, run_bind_error (run_loadSubmission_of_unknown hfind)⟩
  | some r =>
    have hsome : (w.store.brief hostname).submissions.find? j.submissionId = some r := hfind
    have htestcases : (w.store.brief hostname).testcasesOf r.problemId =
        w₁.store.testcasesOf r.problemId := rfl
    obtain ⟨hr, hid⟩ := Store.mem_of_find?_submission hfind
    simp only [hsome, htestcases]
    cases hforeign : reports.find? fun p =>
        !(w₁.store.testcasesOf r.problemId).any fun t => t.id = p.testcaseId with
    | some p =>
      obtain ⟨w₂, hrecord⟩ := run_recordRuns_foreign (w := w₁) hb j.id r.problemId now
        ((w.store.runsOf j.id).map Run.testcaseId) hforeign
      have hload : (loadSubmission j.submissionId).run w₁ = (.ok r, w₁) := by
        rw [← hid]
        exact run_loadSubmission hr
      refine ⟨w₂, ?_⟩
      rw [recordBatch, run_bind hload, run_bind (run_ask rfl), run_bind (run_ask rfl)]
      exact run_bind_error hrecord
    | none =>
      have hknown : ∀ p ∈ reports, ∃ t ∈ w₁.store.testcasesOf r.problemId, t.id = p.testcaseId := by
        intro p hp
        have hpass := List.find?_eq_none.mp hforeign p hp
        simpa using hpass
      obtain ⟨b, hput, -⟩ := Blobs.TakesAll.putAll hb (outputEntries j.id w₁.store.lastRun
        (fresh ((w₁.store.runsOf j.id).map Run.testcaseId) reports))
      have hrun := run_recordBatch (w := w₁) hj hr hid.symm hknown rfl hput now
      have hruns : ((w₁.store.recordRuns j.id now
          (fresh ((w.store.runsOf j.id).map Run.testcaseId) reports)).runsOf j.id).map
            Run.unrecorded =
          (w.store.runsOf j.id ++
            (fresh ((w.store.runsOf j.id).map Run.testcaseId) reports).map fun p =>
              (RunReport.toRun p j.id now).recorded 0).map Run.unrecorded :=
        unrecorded_added (s := w₁.store) hle j.id _
      simp only
      rw [← graded_congr hruns]
      exact follows_of_commit hrun (grade_touchJudgehost hj r.problemId _)

/-- A report of runs follows its ruling. -/
theorem follows_reportRuns (hb : w.blobs.TakesAll)
    (hle : ∀ n ∈ w.store.runs, n.id ≤ w.store.lastRun) (hostname : String) (judgingId : Int)
    (reports : List RunReport) (now : Instant) :
    (reportRuns hostname judgingId reports now).Follows w
      ((w.store.brief hostname).rule now (.runs judgingId reports)) hostname now w.store := by
  simp only [reportRuns, Brief.rule]
  cases reports.find? fun r => !r.verdict.isRunVerdict with
  | some r => exact ⟨w, rfl⟩
  | none =>
    refine follows_ruleOn rfl rfl (fun j hfree => by rw [hfree]; rfl) fun j hj hid hheld => ?_
    rw [if_pos hheld, ← hid]
    exact follows_recordBatch hb hle hj reports

end Grading

/-- A request without faults answers what its body follows, and leaves the store
so. -/
theorem transact_follows {ctx : Context} {body : Transaction (Ending (Option Judging))}
    {ruling : Ruling} (hfaults : ctx.faults = .none)
    (h : body.Follows w ruling hostname ctx.now w.store) :
    (transact ctx w body).answer = ruling.answer ∧
      (transact ctx w body).world.store = ruling.apply hostname ctx.now w.store := by
  cases ruling with
  | refused e =>
    obtain ⟨w', hrun⟩ := h
    rw [transact_run_error hfaults hrun]
    exact ⟨rfl, rfl⟩
  | heard row recorded =>
    obtain ⟨es, b, hrun⟩ := h
    rw [transact_run hfaults hrun]
    exact ⟨rfl, rfl⟩

/-- **A report comes to its ruling**, which its judgehost's brief decides. -/
theorem Report.perform_eq (report : Report) {ctx : Context} (hfaults : ctx.faults = .none)
    (hb : w.blobs.TakesAll) (hle : ∀ n ∈ w.store.runs, n.id ≤ w.store.lastRun)
    (hostname : String) :
    ((report.call.operation hostname).perform ctx w).answer =
        ((w.store.brief hostname).rule ctx.now report).answer ∧
      ((report.call.operation hostname).perform ctx w).world.store =
        ((w.store.brief hostname).rule ctx.now report).apply hostname ctx.now w.store := by
  cases report with
  | compilation judgingId success output =>
    exact transact_follows hfaults
      (Dispatch.follows_reportCompilation w hostname judgingId success output ctx.now)
  | runs judgingId reports =>
    exact transact_follows hfaults
      (Grading.follows_reportRuns hb hle hostname judgingId reports ctx.now)

end JudgeQueue
