import JudgeQueue.Proofs.Grading.Run
import JudgeQueue.Proofs.Ledger.Merge
import JudgeQueue.Proofs.Ledger.Retract
import JudgeQueue.Proofs.Reachable.Basic
/-!
# Reachable worlds — batches without a rejudging

A batch outside of any rejudging reads all active judgings before it replaces
the first, and merges all that it takes back at once. Rejudging the submissions
one by one reads and merges for each of them. The two come to the same, for a
submission that is rejudged does not touch the judgings of another, and what is
taken back does not cancel out.
-/

namespace JudgeQueue

open Transaction

namespace Store

variable {s : Store}

/-- The submissions of a contest that are in no rejudging and whose active
judging is selected, in the order of their ids. -/
def selected (s : Store) (selection : Selection) : List Int :=
  (s.submissions.filter fun r =>
    decide (r.contestId = selection.contestId) && decide (r.rejudgingId = none) &&
      (s.activeOf r.id).any (selection.selects r)).map Submission.id

/-- What a batch reads: the submissions that are selected, each with its active
judging. -/
def matched (s : Store) (selection : Selection) : List (Submission × Judging) :=
  let free := s.submissions.filter (SubmissionFilter.admits
    { contestId := some selection.contestId, rejudgingId := some none })
  Rejudge.matching selection free (s.judgings.filter (JudgingFilter.admits
    { submissionIds := some (free.map Submission.id), active := some true }))

theorem isMatch_of_mem_matched {selection : Selection} {m : Submission × Judging}
    (h : m ∈ s.matched selection) : Rejudge.IsMatch s m :=
  (Rejudge.isMatch_of_mem_matching h).1

theorem nodup_matched (selection : Selection) :
    ((s.matched selection).map fun m => m.1.id).Nodup :=
  Rejudge.nodup_matching (s.submissions.nodup_keys.sublist (List.filter_sublist.map _))

/-- Among the active judgings of some submissions each of these finds its
own. -/
theorem Sound.activeOf_filter (hs : s.Sound) {ids : List Int} {id : Int} (hid : id ∈ ids) :
    Rejudge.activeOf (s.judgings.filter (JudgingFilter.admits
      { submissionIds := some ids, active := some true })) id = s.activeOf id := by
  have hfilter : (s.judgings.filter (JudgingFilter.admits
      { submissionIds := some ids, active := some true })).filter (fun j => j.submissionId = id) =
      s.judgings.filter fun j => decide (j.submissionId = id) && j.active := by
    rw [Table.filter, Table.filter, List.filter_filter]
    refine List.filter_congr fun j _ => ?_
    by_cases hsub : j.submissionId = id
    · simp [JudgingFilter.admits, hsub, hid]
    · simp [hsub]
  rw [Rejudge.activeOf, hfilter, hs.filter_active]
  cases s.activeOf id <;> rfl

/-- Of some submissions those are matched whose active judging is selected. -/
theorem Sound.map_matching (hs : s.Sound) (selection : Selection) (free : List Submission) :
    (Rejudge.matching selection free (s.judgings.filter (JudgingFilter.admits
      { submissionIds := some (free.map Submission.id), active := some true }))).map
        (fun m => m.1.id) =
      (free.filter fun r => (s.activeOf r.id).any (selection.selects r)).map Submission.id := by
  rw [Rejudge.map_matching]
  congr 1
  refine List.filter_congr fun r hr => ?_
  rw [hs.activeOf_filter (List.mem_map_of_mem hr)]

/-- **A batch reads what is selected.** -/
theorem Sound.map_matched (hs : s.Sound) (selection : Selection) :
    (s.matched selection).map (fun m => m.1.id) = s.selected selection := by
  rw [matched, hs.map_matching, selected, Table.filter, Table.filter, List.filter_filter]
  congr 1
  refine List.filter_congr fun r _ => ?_
  simp [SubmissionFilter.admits, Bool.and_comm]

end Store

namespace Rejudge

variable {w w₁ : World}

/-- **Rejudging one submission** replaces its active judging and merges what is
taken back. -/
theorem run_submission (hs : w.store.Sound) {m : Submission × Judging} (hm : IsMatch w.store m)
    {j : Judging} {ds : List StatisticsDelta}
    (hrun : (replaceActive m.1 [m.2] m.1.requiresFullTest).run w = (.ok (j, ds), w₁)) :
    (Rejudge.submission m.1.id).run w =
      (.ok (.commit j []), { w₁ with store := w₁.store.mergeStatistics ds }) := by
  have hcurrent : w.store.judgings.filter (JudgingFilter.admits
      { submissionIds := some [m.1.id], active := some true }) = [m.2] := by
    have hadmits : JudgingFilter.admits { submissionIds := some [m.1.id], active := some true } =
        fun j => decide (j.submissionId = m.1.id) && j.active := by
      funext j
      simp [JudgingFilter.admits]
    rw [hadmits, hs.filter_active, hm.activeOf hs]
    rfl
  have hfind : (Query.findJudgings { submissionIds := some [m.1.id], active := some true }).run
      w.store = .ok ([m.2], w.store) := by
    rw [Query.run, hcurrent]
  rw [Rejudge.submission, run_bind (run_loadSubmission hm.submission), hm.free]
  simp only
  rw [run_bind (run_ask hfind), run_bind hrun, run_bind (run_ask rfl)]
  rfl

/-- **A batch** replaces the active judgings that it has read, and merges what is
taken back at once. -/
theorem run_batch {selection : Selection} {js : List Judging} {ds : List StatisticsDelta}
    (hrun : (replaceAll false (w.store.matched selection)).run w = (.ok (js, ds), w₁)) :
    (batch selection none false).run w =
      (.ok (.commit js []),
        { w₁ with store := w₁.store.mergeStatistics (StatisticsDelta.mergeAll ds) }) := by
  rw [batch, run_bind (x := checkRejudging _ none) rfl, run_bind (run_ask rfl),
    run_bind (run_ask rfl)]
  simp only
  refine (run_bind hrun).trans ?_
  rw [run_bind (run_ask rfl)]
  rfl

end Rejudge

namespace World

variable {w : World} {surroundings : Int → Context}

/-- Rejudges submissions one after another, each by a request of its own. -/
def rejudgeEach (surroundings : Int → Context) :
    List Int → World → List (Except Error Judging) × World
  | [], w => ([], w)
  | id :: rest, w =>
    let first := (Operation.rejudgeSubmission id).perform (surroundings id) w
    let later := rejudgeEach surroundings rest first.world
    (first.answer :: later.1, later.2)

/-- **Submissions one after another.** Replacing active judgings that have been
read before, and then merging what is taken back, is rejudging their submissions
one by one. -/
theorem rejudgeEach_eq (hfaults : ∀ id, (surroundings id).faults = .none)
    {ms : List (Submission × Judging)} (hs : w.store.Sound)
    (hms : ∀ m ∈ ms, Rejudge.IsMatch w.store m) (hnodup : (ms.map fun m => m.1.id).Nodup) :
    ∃ js ds w', (Rejudge.replaceAll false ms).run w = (.ok (js, ds), w') ∧
      (∀ d ∈ ds, d.total < 0) ∧
      w.rejudgeEach surroundings (ms.map fun m => m.1.id) =
        (js.map .ok, { w' with store := w'.store.mergeStatistics ds }) := by
  induction ms generalizing w with
  | nil => exact ⟨[], [], w, rfl, fun d hd => absurd hd List.not_mem_nil, rfl⟩
  | cons m rest ih =>
    have hm := hms m List.mem_cons_self
    obtain ⟨hne, hnodup⟩ := List.nodup_cons.mp hnodup
    obtain ⟨j, ds, w₁, hone, hstore, hneg⟩ :=
      Rejudge.run_replaceActive hs hm m.1.requiresFullTest
    have hperform : (Operation.rejudgeSubmission m.1.id).perform (surroundings m.1.id) w =
        ⟨.ok j, { w₁ with store := w₁.store.mergeStatistics ds }, []⟩ :=
      transact_run (hfaults _) (Rejudge.run_submission hs hm hone)
    have hsound := hs.trace (perform_trace (.rejudgeSubmission m.1.id) (surroundings m.1.id) hs)
    rw [hperform] at hsound
    have hmatch : ∀ m' ∈ rest, Rejudge.IsMatch (w₁.store.mergeStatistics ds) m' := by
      intro m' hm'
      have hid : m'.1.id ≠ m.1.id := fun heq => hne (List.mem_map.mpr ⟨m', hm', heq⟩)
      have hother := (hms m' (List.mem_cons_of_mem _ hm')).rejudge hs.numbered hid
        m.1.requiresFullTest
      rw [← hstore] at hother
      exact ⟨hother.submission, hother.free, hother.judging, hother.submissionId, hother.active⟩
    obtain ⟨js, dss, w', hlater, hneg', heach⟩ := ih hsound hmatch hnodup
    -- the others run alike before anything is merged
    obtain ⟨hbefore, hstatistics⟩ := (Rejudge.isApart_replaceAll false rest).run_of_merged hlater
    refine ⟨j :: js, ds ++ dss, w'.withStatistics w₁.store.statistics, ?run, ?neg, ?each⟩
    case run =>
      rw [Rejudge.replaceAll, Bool.false_or, run_bind hone, run_bind hbefore]
      rfl
    case neg =>
      intro d hd
      exact (List.mem_append.mp hd).elim (hneg d) (hneg' d)
    case each =>
      have hmerged : w'.store.mergeStatistics dss =
          (w'.withStatistics w₁.store.statistics).store.mergeStatistics (ds ++ dss) := by
        rw [Store.mergeStatistics, Store.mergeStatistics, List.foldl_append, hstatistics]
        rfl
      rw [List.map_cons, rejudgeEach, hperform]
      simp only
      rw [heach, hmerged]
      rfl

/-- **A batch is its single steps.** In a reachable world, a batch without a
rejudging answers the judgings, and leaves the world, that rejudging each of the
selected submissions leads to, one after another in the order of their ids. -/
theorem batchRejudge_eq_rejudgeEach (h : w.Reachable) {ctx : Context}
    (hctx : ctx.faults = .none) (hfaults : ∀ id, (surroundings id).faults = .none)
    (selection : Selection) :
    ∃ js, ((Operation.batchRejudge selection none false).perform ctx w).answer = .ok js ∧
      w.rejudgeEach surroundings (w.store.selected selection) =
        (js.map .ok, ((Operation.batchRejudge selection none false).perform ctx w).world) := by
  obtain ⟨js, ds, w', hrun, hneg, heach⟩ := rejudgeEach_eq hfaults h.sound
    (fun m hm => Store.isMatch_of_mem_matched hm) (Store.nodup_matched selection)
  have hperform : (Operation.batchRejudge selection none false).perform ctx w = _ :=
    transact_run hctx (Rejudge.run_batch hrun)
  have hmerge : w'.store.mergeStatistics (StatisticsDelta.mergeAll ds) =
      w'.store.mergeStatistics ds := by
    rw [Store.mergeStatistics, Store.mergeStatistics, Table.foldl_count_mergeAll hneg]
  refine ⟨js, ?_, ?_⟩
  · rw [hperform]
  · rw [hperform, hmerge, ← heach, h.sound.map_matched]

/-- In the small contest both submissions are selected. Rejudging them takes
back all that was counted, in one batch as one by one, and leaves a row without
counts. -/
theorem rejudgeEach_contestCounted :
    contestCounted.Reachable ∧ contestContext.faults = .none ∧
      contestCounted.store.selected { contestId := 1 } = [1, 2] ∧
      (∃ js, ((Operation.batchRejudge { contestId := 1 } none false).perform contestContext
          contestCounted).answer = .ok js ∧
        contestCounted.rejudgeEach (fun _ => contestContext)
          (contestCounted.store.selected { contestId := 1 }) =
          (js.map .ok, contestCounted.after (.batchRejudge { contestId := 1 } none false))) ∧
      contestCounted.store.statistics.rows = [⟨1, 1, 1, 2, 1⟩] ∧
      (contestCounted.after (.batchRejudge { contestId := 1 } none false)).store.statistics.rows =
        [⟨1, 1, 1, 0, 0⟩] := by
  have hfaults : contestContext.faults = .none := rfl
  refine ⟨reachable_contestCounted, hfaults, by decide +kernel, ?_, by decide +kernel,
    by decide +kernel⟩
  exact batchRejudge_eq_rejudgeEach reachable_contestCounted hfaults (fun _ => hfaults) _

end World

end JudgeQueue
