import JudgeQueue.Proofs.Trace.Basic
/-!
# Traces of requests — standings

Counting a judging and rebuilding a contest set flags by filters. Read row by
row, the filters of a count say that the judging is active and has ended, and
those of a rebuild that a judging of the contest keeps its flag only if it
is active.
-/

namespace JudgeQueue

open Transaction

variable {now : Instant} {s : Store}

namespace Standings

/-- Counting one judging flags it, if it is active and has ended. -/
theorem setJudgingsCounted_ofId (id : Int) :
    (s.setJudgingsCounted
      { JudgingFilter.ofIds [id] with active := some true, lifecycle := some .finalized } true).2 =
      s.countJudging id := by
  have hjud : (s.setJudgingsCounted
      { JudgingFilter.ofIds [id] with active := some true, lifecycle := some .finalized }
      true).2.judgings = s.judgings.modify id Judging.flagged Judging.key_flagged := by
    rw [Store.judgings_setJudgingsCounted, Table.modify]
    refine Table.update_congr fun j _ => ?_
    rw [Judging.ite_counted]
    by_cases hid : j.id = id
    · have hkey : decide (key j = id) = true := decide_eq_true hid
      rw [if_pos hkey, Judging.flagged]
      congr 1
      cases hc : j.counted <;> cases ha : j.active <;>
        simp [JudgingFilter.admits, JudgingFilter.ofIds, Judging.isFinalized, hid, hc, ha]
    · have hkey : ¬ decide (key j = id) = true := fun heq => hid (of_decide_eq_true heq)
      rw [if_neg hkey]
      simp [JudgingFilter.admits, JudgingFilter.ofIds, hid]
  exact congrArg (fun judgings => { s with judgings }) hjud

theorem traces_judgingFinished (judgingId : Int) : (judgingFinished judgingId).Traces now s := by
  simp only [Traces, judgingFinished, commits_bind]
  refine Store.ensures_count.mono ?_
  rintro ds _ ⟨rfl, hds⟩
  simp only [ensures_ask, Query.run]
  rw [setJudgingsCounted_ofId] at hds ⊢
  exact commits_commit.mpr (.of_change (.count judgingId hds))

theorem traces_get (contestId : Int) : (get contestId).Traces now s := by
  simp only [Traces, get, commits_bind, ensures_ask, Query.run]
  exact traces_commit _

/-! ## Rebuilding -/

/-- The judgings that a rebuild counts. -/
def counting (s : Store) (contestId : Int) : JudgingFilter :=
  { submissionIds := some ((s.submissionsOf contestId).map Submission.id)
    active := some true
    lifecycle := some .finalized }

/-- The judgings whose flags a rebuild clears. -/
def inactive (s : Store) (contestId : Int) : JudgingFilter :=
  { submissionIds := some ((s.submissionsOf contestId).map Submission.id), active := some false }

/-- What a rebuild counts: the judgings of the contest that are active and
have ended. -/
theorem filter_counting (contestId : Int) :
    s.judgings.filter (counting s contestId).admits =
      s.judgings.filter fun j =>
        s.isOf contestId j.submissionId && (j.active && j.isFinalized) := by
  refine List.filter_congr fun j _ => ?_
  simp [counting, JudgingFilter.admits, Store.isOf, Judging.isFinalized, Bool.and_assoc,
    Bool.and_comm]

/-- **The flags of a rebuild.** Clearing those of the inactive judgings and
setting those of the active ones that have ended is one change a row. -/
theorem setJudgingsCounted_rebuild (contestId : Int) :
    (((s.replaceStatistics contestId (s.standings contestId)).setJudgingsCounted
      (inactive s contestId) false).2.setJudgingsCounted (counting s contestId) true).2 =
      s.rebuild contestId := by
  have hjud : (((s.replaceStatistics contestId (s.standings contestId)).setJudgingsCounted
      (inactive s contestId) false).2.setJudgingsCounted (counting s contestId) true).2.judgings =
      s.judgings.update (fun j => s.isOf contestId j.submissionId) Judging.reflagged
        Judging.key_reflagged := by
    rw [Store.judgings_setJudgingsCounted, Store.judgings_setJudgingsCounted]
    refine Table.update_update fun j _ => ?_
    rw [Judging.ite_counted, Judging.ite_counted]
    have hcontains : ((s.submissionsOf contestId).map Submission.id).contains j.submissionId =
        s.isOf contestId j.submissionId := rfl
    simp only [counting, inactive, JudgingFilter.admits, Option.all_none, Option.all_some,
      Bool.true_and, Bool.and_true, hcontains]
    cases hof : s.isOf contestId j.submissionId with
    | false => simp
    | true =>
      rw [if_pos rfl, Judging.reflagged]
      congr 1
      cases hc : j.counted <;> cases ha : j.active <;> simp [Judging.isFinalized]
  exact congrArg
    (fun judgings => { s.replaceStatistics contestId (s.standings contestId) with judgings }) hjud

/-- The rows that a rebuild computes. -/
theorem rowsOf_counting (contestId : Int) :
    rowsOf (s.submissionsOf contestId) (s.judgings.filter (counting s contestId).admits) =
      s.standings contestId := by
  rw [filter_counting, Store.standings]

/-- **Rebuilding** replaces the rows of the contest and sets the flags of its
judgings. -/
theorem commits_rebuild (contestId : Int) :
    (rebuild contestId).Commits s fun _ es s' => es = [] ∧ s' = s.rebuild contestId := by
  simp only [rebuild, commits_bind, ensures_ask, Query.run]
  change (commit _ []).Commits (((s.replaceStatistics contestId
    (rowsOf (s.submissionsOf contestId)
      (s.judgings.filter (counting s contestId).admits))).setJudgingsCounted
    (inactive s contestId) false).2.setJudgingsCounted (counting s contestId) true).2 _
  rw [rowsOf_counting, setJudgingsCounted_rebuild, commits_commit]
  exact ⟨rfl, rfl⟩

theorem traces_rebuild (contestId : Int) : (rebuild contestId).Traces now s := by
  refine (commits_rebuild contestId).mono ?_
  rintro _ _ _ ⟨rfl, rfl⟩
  exact .of_change (.rebuild contestId)

end Standings

end JudgeQueue
