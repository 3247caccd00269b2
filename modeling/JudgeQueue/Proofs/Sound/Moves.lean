import JudgeQueue.Proofs.Sound.Advance
/-!
# Sound stores — which changes move judgings on

A judging that is handed out, put back, compiled, graded or flagged moves
on. Only the judging that a judgehost holds can end here, and it ends with a
result.
-/

namespace JudgeQueue

theorem Judging.isQueued_iff {j : Judging} : j.isQueued = true ↔ j.lifecycle = .queued :=
  decide_eq_true_iff

theorem Judging.isClaimed_iff {j : Judging} : j.isClaimed = true ↔ j.lifecycle = .claimed :=
  decide_eq_true_iff

theorem Judging.isFinalized_iff {j : Judging} : j.isFinalized = true ↔ j.lifecycle = .finalized :=
  decide_eq_true_iff

/-- A judging that a judgehost holds is claimed. -/
theorem Judging.lifecycle_of_isClaimedBy {j : Judging} {hostname : String}
    (h : j.isClaimedBy hostname = true) : j.lifecycle = .claimed := by
  rw [isClaimedBy, Bool.and_eq_true] at h
  exact isClaimed_iff.mp h.1

namespace Judging

variable {j : Judging}

/-! ## Single judgings -/

theorem advances_claimedBy (hl : j.lifecycle = .queued) (hostname : String) (now : Instant) :
    j.Advances (j.claimedBy hostname now) where
  id := rfl
  submissionId := rfl
  active := rfl
  rejudgingId := rfl
  previousJudgingId := rfl
  ended h := by
    rw [hl] at h
    cases h
  result h := by cases h
  counted := .inl

theorem advances_unclaimed : j.Advances j.unclaimed :=
  ⟨rfl, rfl, rfl, rfl, rfl, fun h => ⟨h, rfl⟩, .inl, .inl⟩

/-- A judging that does not compile ends with that result. -/
theorem advances_compiled (hl : j.lifecycle = .claimed) (success : Bool) (output : String)
    (now : Instant) : j.Advances (Dispatch.compiled j success output now) := by
  cases success with
  | true => exact ⟨rfl, rfl, rfl, rfl, rfl, fun h => ⟨h, rfl⟩, .inl, .inl⟩
  | false =>
    refine ⟨rfl, rfl, rfl, rfl, rfl, fun h => ?_, fun _ => .inr ⟨.compileError, rfl, by decide⟩,
      .inl⟩
    rw [hl] at h
    cases h

/-- A judging that its runs complete ends with the verdict of a run. -/
theorem advances_graded (hl : j.lifecycle = .claimed) {runs : List Run}
    (hruns : ∀ n ∈ runs, n.verdict.isRunVerdict = true) (testcases : List Testcase)
    (fragment : String) (now : Instant) :
    j.Advances (Grading.graded j runs testcases fragment now) := by
  unfold Grading.graded
  simp only
  split
  · next hcomplete =>
    refine ⟨rfl, rfl, rfl, rfl, rfl, fun h => ?_,
      fun _ => .inr (Summary.exists_finalVerdict hcomplete hruns), .inl⟩
    rw [hl] at h
    cases h
  · exact ⟨rfl, rfl, rfl, rfl, rfl, fun h => ⟨h, rfl⟩, .inl, .inl⟩

theorem advances_flagged : j.Advances j.flagged := by
  refine ⟨rfl, rfl, rfl, rfl, rfl, fun h => ⟨h, rfl⟩, .inl, fun h => ?_⟩
  rw [flagged, Bool.or_eq_true, Bool.and_eq_true, isFinalized_iff] at h
  exact h

theorem advances_reflagged : j.Advances j.reflagged := by
  refine ⟨rfl, rfl, rfl, rfl, rfl, fun h => ⟨h, rfl⟩, .inl, fun h => ?_⟩
  rw [reflagged, Bool.and_eq_true, Bool.or_eq_true, isFinalized_iff] at h
  obtain ⟨ha, hl | hc⟩ := h
  · exact .inr ⟨ha, hl⟩
  · exact .inl hc

end Judging

namespace Store

variable {s : Store} {j : Judging}

/-! ## The store -/

/-- What is handed out is in the queue. -/
theorem mem_of_nextDispatchable (h : s.nextDispatchable = some j) :
    j ∈ s.judgings ∧ j.lifecycle = .queued := by
  have hj := List.find?_some h
  rw [Bool.and_eq_true, Judging.isQueued_iff] at hj
  exact ⟨List.mem_of_find?_eq_some h, hj.1⟩

theorem advances_handOut (h : s.nextDispatchable = some j) (hostname : String) (now : Instant) :
    s.Advances (s.handOut j.id hostname now) := by
  obtain ⟨hj, hl⟩ := mem_of_nextDispatchable h
  exact .of_modify (fun j => j.key_claimedBy hostname now) rfl rfl rfl rfl rfl hj
    (Judging.advances_claimedBy hl hostname now)

theorem advances_putBack (hj : j ∈ s.judgings) : s.Advances (s.putBack j.id) :=
  .of_modify Judging.key_unclaimed rfl rfl rfl rfl rfl hj Judging.advances_unclaimed

theorem advances_compile (hj : j ∈ s.judgings) (hl : j.lifecycle = .claimed) (success : Bool)
    (output : String) (now : Instant) : s.Advances (s.compile j.id success output now) :=
  .of_modify (Dispatch.key_compiled · success output now) rfl rfl rfl rfl rfl hj
    (Judging.advances_compiled hl success output now)

section Grade

variable {reports : List RunReport} (hverdict : ∀ p ∈ reports, p.verdict.isRunVerdict = true)

include hverdict

/-- Reports with the verdicts of runs leave such runs. -/
theorem runsGraded_recordRuns (h : s.RunsGraded) (id : Int) (now : Instant) :
    (s.recordRuns id now reports).RunsGraded := by
  intro n hn
  rcases mem_runs_recordRuns hn with hn | ⟨⟨p, hp, hv⟩, -⟩
  · exact h n hn
  · rw [hv]
    exact hverdict p hp

theorem advances_grade (h : s.RunsGraded) (hj : j ∈ s.judgings) (hl : j.lifecycle = .claimed)
    (problemId : Int) (now : Instant) : s.Advances (s.grade j.id problemId reports now) := by
  have hruns : ∀ n ∈ (s.recordRuns j.id now reports).runsOf j.id, n.verdict.isRunVerdict = true :=
    fun n hn => runsGraded_recordRuns hverdict h j.id now n (Table.mem_filter.mp hn).1
  have hadv := Judging.advances_graded hl hruns (s.testcasesOf problemId)
    (Grading.fragment reports) now
  exact .of_modify (Grading.key_graded · _ _ _ now)
    (recordRuns_congr Store.submissions fun _ _ => rfl)
    (recordRuns_congr Store.rejudgings fun _ _ => rfl)
    (recordRuns_congr Store.lastJudging fun _ _ => rfl)
    (recordRuns_congr Store.lastRejudging fun _ _ => rfl) rfl hj hadv

end Grade

theorem advances_countJudging (id : Int) : s.Advances (s.countJudging id) :=
  .of_update Judging.key_flagged rfl rfl rfl rfl rfl fun _ _ _ => Judging.advances_flagged

theorem advances_rebuild (contestId : Int) : s.Advances (s.rebuild contestId) :=
  .of_update Judging.key_reflagged rfl rfl rfl rfl rfl fun _ _ _ => Judging.advances_reflagged

end Store

end JudgeQueue
