import JudgeQueue.Proofs.Course.Table
import JudgeQueue.Proofs.Ledger.Recount
import JudgeQueue.Proofs.Trace.Rejudge
import JudgeQueue.Proofs.Transaction.Apart
/-!
# The ledger — retracting what was counted

Replacing the active judging of a submission takes back what was counted of it.
The deltas that do so all take something back, they are read off the judgings
and the submissions, and none of the steps is about the statistics. So each of
several replacements comes to the same whether or not the deltas of those
before it have been merged.
-/

namespace JudgeQueue

open Transaction

/-- **A submission has one active judging at most**, so listing them comes to
the same as finding one. -/
theorem Store.Sound.filter_active {s : Store} (hs : s.Sound) (id : Int) :
    s.judgings.filter (fun j => decide (j.submissionId = id) && j.active) =
      (s.activeOf id).toList := by
  cases hfound : s.activeOf id with
  | none => exact List.filter_eq_nil_iff.mpr (List.find?_eq_none.mp hfound)
  | some a =>
    obtain ⟨ha, hsub, hact⟩ := Store.mem_of_activeOf hfound
    have hkey : ∀ j ∈ s.judgings,
        (decide (j.submissionId = id) && j.active) = decide (key j = key a) := by
      intro j hj
      rw [Bool.eq_iff_iff, Bool.and_eq_true, decide_eq_true_eq, decide_eq_true_eq]
      constructor
      · rintro ⟨hjsub, hjact⟩
        rw [hs.authority.active_eq j hj a ha (hjsub.trans hsub.symm) hjact hact]
      · intro heq
        rw [Store.judging_eq hj ha heq]
        exact ⟨hsub, hact⟩
    rw [Table.filter, List.filter_congr hkey]
    exact Table.filter_key ha

namespace Standings

variable {s : Store}

/-- Contributions count one submission each. -/
theorem ensures_contributions_total {judgings : List Judging} :
    (contributions judgings).Ensures s fun ds _ => ∀ d ∈ ds, d.total = 1 := by
  unfold contributions
  split
  · exact fun d hd => absurd hd List.not_mem_nil
  · simp only [ensures_bind, ensures_ask, Query.run, ensures_pure]
    intro d hd
    obtain ⟨j, -, hj⟩ := List.mem_filterMap.mp hd
    obtain ⟨r, -, hr⟩ := Option.bind_eq_some_iff.mp hj
    unfold contribution at hr
    split at hr
    · cases hr
    · cases hr
      rfl

/-- **What is retracted** takes something back. -/
theorem ensures_uncount_neg {f : JudgingFilter} :
    (uncount f).Ensures s fun ds _ => ∀ d ∈ ds, d.total < 0 := by
  simp only [uncount, ensures_bind, ensures_ask, Query.run]
  refine ensures_contributions_total.mono fun ds s' htotal => ?_
  rw [ensures_pure]
  intro d hd
  obtain ⟨e, he, rfl⟩ := List.mem_map.mp hd
  change -e.total < 0
  rw [htotal e he]
  decide

theorem isApart_contributions (judgings : List Judging) : (contributions judgings).IsApart := by
  unfold contributions
  split
  · exact isApart_pure _
  · exact (isApart_ask rfl).bind fun _ => isApart_pure _

theorem isApart_uncount (f : JudgingFilter) : (uncount f).IsApart :=
  (isApart_ask rfl).bind fun cleared =>
    (isApart_contributions cleared).bind fun _ => isApart_pure _

end Standings

namespace Rejudge

variable {s : Store} {w : World}

theorem isApart_replaceActive (r : Submission) (current : List Judging) (fullTest : Bool) :
    (replaceActive r current fullTest).IsApart :=
  (isApart_ask rfl).bind fun _ => (Standings.isApart_uncount _).bind fun _ =>
    (isApart_ask rfl).bind fun _ => isApart_pure _

/-- **Several replacements** are apart from the statistics. -/
theorem isApart_replaceAll (fullTest : Bool) (ms : List (Submission × Judging)) :
    (replaceAll fullTest ms).IsApart := by
  induction ms with
  | nil => exact isApart_pure _
  | cons m rest ih =>
    exact (isApart_replaceActive _ _ _).bind fun _ => ih.bind fun _ => isApart_pure _

theorem ensures_replaceActive_neg (r : Submission) (current : List Judging) (fullTest : Bool) :
    (replaceActive r current fullTest).Ensures s fun out _ => ∀ d ∈ out.2, d.total < 0 := by
  simp only [replaceActive, ensures_bind, ensures_ask, Query.run]
  refine Standings.ensures_uncount_neg.mono fun ds s' hneg => ?_
  split
  · exact hneg
  · trivial

/-- **Replacing the active judging** of a submission goes through. -/
theorem run_replaceActive (hs : w.store.Sound) {m : Submission × Judging}
    (hm : IsMatch w.store m) (fullTest : Bool) :
    ∃ j ds w', (replaceActive m.1 [m.2] fullTest).run w = (.ok (j, ds), w') ∧
      w'.store = w.store.rejudge m.1.id fullTest ∧ ∀ d ∈ ds, d.total < 0 := by
  obtain ⟨ds, huncount⟩ := Standings.run_uncount
    (w := { w with
      store := (w.store.updateJudgings (.ofIds [m.2.id]) (.setActive false)).2 })
    (.ofSubmissions [m.1.id])
  have hknown : w.store.submissions.contains m.1.id = true :=
    Table.contains_iff.mpr ⟨m.1, hm.submission, rfl⟩
  have hinsert : ∀ new : NewJudging, new.submissionId = m.1.id → ∀ s : Store,
      s.submissions = w.store.submissions → (Query.insertJudging new).run s =
        .ok (new.queued (s.lastJudging + 1), s.queue new) := by
    intro new hnew s hsub
    rw [Query.run, Store.insertJudging_eq, hsub, hnew, if_pos hknown]
  obtain ⟨j, w', hrun⟩ : ∃ j w', (replaceActive m.1 [m.2] fullTest).run w = (.ok (j, ds), w') :=
    ⟨_, _, (run_bind (run_ask rfl)).trans <| (run_bind huncount).trans <|
      run_bind (run_ask (hinsert _ rfl _ (by rfl)))⟩
  have hrejudges := ensures_replaceActive hs.numbered m.1 (fun i => hm.mem_current hs)
    (hm.activeOf hs).symm fullTest
  exact ⟨j, ds, w', hrun, (hrejudges.run hrun).1, (ensures_replaceActive_neg _ _ _).run hrun⟩

end Rejudge

end JudgeQueue
