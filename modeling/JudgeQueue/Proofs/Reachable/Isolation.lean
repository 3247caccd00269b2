import JudgeQueue.Proofs.Change.Elsewhere
import JudgeQueue.Proofs.Reachable.Basic
/-!
# Reachable worlds — contests apart

Rejudging and rebuilding are asked for by contest, but rows are changed by what
names them: by the rejudging, by lists of submissions, by lists of judgings.
None of these leads out of the contest. So whatever becomes of such a request,
nothing shows of it elsewhere.
-/

namespace JudgeQueue

open Transaction StatisticsDelta

/-! ## What requests are about one contest -/

/-- Whether a request is about one contest only: a batch selects from it, a
rejudging is one of it, or its statistics are rebuilt. -/
def Operation.IsWithin {α : Type} (s : Store) (contestId : Int) : Operation α → Prop
  | batchRejudge selection _ _ => selection.contestId = contestId
  | applyRejudging id _ => ∀ q ∈ s.rejudgings, q.id = id → q.contestId = contestId
  | cancelRejudging id _ => ∀ q ∈ s.rejudgings, q.id = id → q.contestId = contestId
  | rebuildStatistics id => id = contestId
  | _ => False

namespace Rejudge

variable {s : Store} {c : Int}

/-! ## Batches -/

/-- **Replacing active judgings of the contest**, one after another, does not
show elsewhere, and the deltas bridge the stores. -/
theorem ensures_replaceAll_elsewhere (fullTest : Bool) {ms : List (Submission × Judging)}
    (hs : s.Sound) (hms : ∀ m ∈ ms, IsMatch s m ∧ m.1.contestId = c)
    (hnodup : (ms.map fun m => m.1.id).Nodup) :
    (replaceAll fullTest ms).Ensures s fun out s' =>
      s'.elsewhere c = s.elsewhere c ∧ s.Bridges out.2 s' := by
  induction ms generalizing s with
  | nil => exact ⟨rfl, Store.bridges_nil fun _ => rfl⟩
  | cons m rest ih =>
    obtain ⟨⟨hm, hcontest⟩, hrestms⟩ := List.forall_mem_cons.mp hms
    obtain ⟨hne, hrest⟩ := List.nodup_cons.mp hnodup
    obtain ⟨r, current⟩ := m
    simp only [replaceAll, ensures_bind, ensures_pure]
    refine (ensures_replaceActive hs.numbered r (fun j => hm.mem_current hs)
      (hm.activeOf hs).symm _).mono ?_
    rintro ⟨j, ds⟩ _ ⟨rfl, hds⟩
    have helse := Store.elsewhere_rejudge hs.numbered
      (Store.isElsewhere_eq_false hm.submission hcontest) (fullTest || r.requiresFullTest)
    have hmatches : ∀ m' ∈ rest,
        IsMatch (s.rejudge r.id (fullTest || r.requiresFullTest)) m' ∧ m'.1.contestId = c := by
      intro m' hm'
      obtain ⟨hmatch, hcontest'⟩ := hrestms m' hm'
      exact ⟨hmatch.rejudge hs.numbered (fun heq => hne (List.mem_map.mpr ⟨m', hm', heq⟩)) _,
        hcontest'⟩
    refine (ih (hs.rejudge hm.submission _) hmatches hrest).mono fun out s' hout => ?_
    exact ⟨hout.1.trans helse, hds.trans hout.2⟩

/-- Queueing candidates for submissions of the contest, which are moved into
their rejudging first, does not show elsewhere. -/
theorem elsewhere_mark (hs : s.Numbered) {id : Int} {fullTest : Bool}
    {ms : List (Submission × Judging)} (hms : ∀ m ∈ ms, IsMatch s m ∧ m.1.contestId = c) :
    ((ms.map fun m => candidate id fullTest m.2).foldl Store.queue
      (s.mark id (ms.map fun m => m.1.id))).elsewhere c = s.elsewhere c := by
  have hmoved : (s.mark id (ms.map fun m => m.1.id)).submissionsElsewhere c =
      s.submissionsElsewhere c := by
    refine Store.elsewhere_move fun r hr hmem => ?_
    rw [List.contains_iff_mem] at hmem
    obtain ⟨m, hm, hid⟩ := List.mem_map.mp hmem
    obtain ⟨hmatch, hcontest⟩ := hms m hm
    rwa [Store.submission_eq hr hmatch.submission hid.symm]
  have hmark : (s.mark id (ms.map fun m => m.1.id)).elsewhere c = s.elsewhere c :=
    Store.elsewhere_congr hmoved rfl (fun _ _ _ => rfl) rfl rfl
  have hcandidate : ∀ new ∈ ms.map fun m => candidate id fullTest m.2,
      (s.mark id (ms.map fun m => m.1.id)).isElsewhere c new.submissionId = false := by
    intro new hnew
    obtain ⟨m, hm, rfl⟩ := List.mem_map.mp hnew
    obtain ⟨hmatch, hcontest⟩ := hms m hm
    have hsub : (candidate id fullTest m.2).submissionId = m.1.id := hmatch.submissionId
    rw [Store.isElsewhere_congr hmoved, hsub]
    exact Store.isElsewhere_eq_false hmatch.submission hcontest
  have hle : ∀ j ∈ (s.mark id (ms.map fun m => m.1.id)).judgings,
      j.id ≤ (s.mark id (ms.map fun m => m.1.id)).lastJudging := hs.judging_le
  exact (Store.elsewhere_foldl_queue hle hcandidate).trans hmark

/-- **A batch** stays within the contest that it selects from. -/
theorem commits_batch_elsewhere (hs : s.Sound) (selection : Selection) (rejudgingId : Option Int)
    (fullTest : Bool) :
    (batch selection rejudgingId fullTest).Commits s fun _ _ s' =>
      s'.elsewhere selection.contestId = s.elsewhere selection.contestId := by
  simp only [batch, commits_bind]
  refine (ensures_checkRejudging _ _).mono ?_
  rintro _ t ⟨rfl, -⟩
  simp only [ensures_ask, Query.run]
  generalize hmatched : matching selection _ _ = matched
  have hms : ∀ m ∈ matched, IsMatch t m ∧ m.1.contestId = selection.contestId :=
    fun m hm => isMatch_of_mem_matching (hmatched ▸ hm)
  have hnodup : (matched.map fun m => m.1.id).Nodup := by
    rw [← hmatched]
    exact nodup_matching (t.submissions.nodup_keys.sublist (List.filter_sublist.map _))
  cases rejudgingId with
  | none =>
    simp only [commits_bind]
    refine (ensures_replaceAll_elsewhere fullTest hs hms hnodup).mono ?_
    rintro out t' ⟨helse, hds⟩
    simp only [ensures_ask, Query.run]
    exact commits_commit.mpr (Store.elsewhere_merged helse hds)
  | some id =>
    simp only [commits_bind, ensures_ask, Query.run, Store.setSubmissionsRejudging_ofIds]
    refine (ensures_insertAll _).mono ?_
    rintro judgings _ rfl
    exact commits_commit.mpr (elsewhere_mark hs.numbered hms)

/-! ## Decisions -/

theorem commits_apply_elsewhere (hs : s.Sound) (he : s.Enrolled) {id : Int}
    (hid : ∀ q ∈ s.rejudgings, q.id = id → q.contestId = c) (operator : Option Int)
    (now : Instant) :
    (apply id operator now).Commits s fun _ _ s' => s'.elsewhere c = s.elsewhere c := by
  refine (commits_apply id operator now).mono ?_
  rintro _ _ _ ⟨-, q, hq, rfl, hopen, -, ds, hbridge, rfl⟩
  obtain rfl := hid q hq rfl
  have hds : s.Bridges ds (s.applyRejudging q.id now operator) := by
    intro k
    rw [hbridge k, sumAt_mergeAll]
  exact Store.elsewhere_merged ((hs.confined he hq hopen).applyRejudging now operator) hds

theorem commits_cancel_elsewhere (hs : s.Sound) (he : s.Enrolled) {id : Int}
    (hid : ∀ q ∈ s.rejudgings, q.id = id → q.contestId = c) (operator : Option Int)
    (now : Instant) :
    (cancel id operator now).Commits s fun _ _ s' => s'.elsewhere c = s.elsewhere c := by
  refine (commits_cancel id operator now).mono ?_
  rintro _ _ _ ⟨q, hq, rfl, hopen, -, rfl⟩
  obtain rfl := hid q hq rfl
  exact (hs.confined he hq hopen).cancelRejudging now operator

end Rejudge

namespace World

variable {w : World} {c : Int}

/-- What a body commits without it showing elsewhere does not show as a request
either, whatever its surroundings make of it. -/
theorem elsewhere_transact {α : Type} {ctx : Context} {body : Transaction (Ending α)}
    (h : body.Commits w.store fun _ _ s' => s'.elsewhere c = w.store.elsewhere c) :
    (transact ctx w body).world.store.elsewhere c = w.store.elsewhere c :=
  transact_events (P := fun _ s' => s'.elsewhere c = w.store.elsewhere c) h rfl

/-- **Contests do not meet.** In every reachable world a request about one
contest leaves the submissions of all others as they are, with their judgings
and runs, and so their rows of the statistics and their rejudgings, whatever it
asks for and whatever it is answered. -/
theorem elsewhere_perform (h : w.Reachable) {α : Type} {op : Operation α}
    (hop : op.IsWithin w.store c) (ctx : Context) :
    (op.perform ctx w).world.store.elsewhere c = w.store.elsewhere c := by
  cases op with
  | batchRejudge selection rejudgingId fullTest =>
    obtain rfl : selection.contestId = c := hop
    exact elsewhere_transact
      (Rejudge.commits_batch_elsewhere h.sound selection rejudgingId fullTest)
  | applyRejudging id operator =>
    exact elsewhere_transact
      (Rejudge.commits_apply_elsewhere h.sound h.enrolled hop operator ctx.now)
  | cancelRejudging id operator =>
    exact elsewhere_transact
      (Rejudge.commits_cancel_elsewhere h.sound h.enrolled hop operator ctx.now)
  | rebuildStatistics contestId =>
    obtain rfl : contestId = c := hop
    refine elsewhere_transact ((Standings.commits_rebuild contestId).mono ?_)
    rintro _ _ _ ⟨-, rfl⟩
    exact Store.elsewhere_rebuild w.store contestId
  | _ => exact hop.elim

/-! ## Two contests

Each has a submission that does not compile and counts as such, and an open
rejudging with a candidate. The candidate of the first contest has ended. -/

/-- The rows of the small contest, with its second submission in a contest of
its own. -/
def leagueRows : Seed :=
  { contestRows with
    submissions :=
      [⟨1, 1, 1, 1, "c", ⟨0, false⟩, none, false, none⟩,
       ⟨2, 2, 1, 1, "c", ⟨0, false⟩, none, false, none⟩] }

/-- Both submissions are judged and counted. -/
def leagueCounted : World :=
  (((((((((seeded leagueRows (.memory [])).after (.enqueue 1)).after (.enqueue 2)).after
    (.register "host")).after (.claimJudging "host")).after (.claimJudging "host")).after
    (.reportCompilation "host" 1 false "")).after (.reportCompilation "host" 2 false "")).after
    (.judgingFinished 1)).after (.judgingFinished 2)

/-- Both are rejudged, and the first candidate has ended. -/
def leagueRejudged : World :=
  (((((leagueCounted.after (.createRejudging ⟨1, "", none⟩)).after
    (.createRejudging ⟨2, "", none⟩)).after (.batchRejudge { contestId := 1 } (some 1) false)).after
    (.batchRejudge { contestId := 2 } (some 2) false)).after (.claimJudging "host")).after
    (.reportCompilation "host" 3 false "")

theorem reachable_leagueRejudged : leagueRejudged.Reachable := by
  have hfree : ∀ r ∈ leagueRows.submissions, r.rejudgingId = none := by decide
  have hseeded : (seeded leagueRows (.memory [])).Reachable := ⟨_, _, hfree, .refl⟩
  have hcounted : leagueCounted.Reachable :=
    ((((((((hseeded.after _).after _).after _).after _).after _).after _).after _).after _).after _
  exact (((((hcounted.after _).after _).after _).after _).after _).after _

/-- What the second contest owns outlasts all that is done to the first one,
while that is done. -/
theorem elsewhere_leagueRejudged :
    leagueRejudged.Reachable ∧
      (leagueRejudged.store.elsewhere 1).judgings.map (fun entry => entry.1.id) = [2, 4] ∧
      (leagueRejudged.store.elsewhere 1).statistics = [⟨2, 1, 1, 1, 0⟩] ∧
      (leagueRejudged.after (.applyRejudging 1 none)).store.elsewhere 1 =
        leagueRejudged.store.elsewhere 1 ∧
      (leagueRejudged.after (.cancelRejudging 1 none)).store.elsewhere 1 =
        leagueRejudged.store.elsewhere 1 ∧
      (leagueRejudged.after (.batchRejudge { contestId := 1 } none false)).store.elsewhere 1 =
        leagueRejudged.store.elsewhere 1 ∧
      (leagueRejudged.after (.rebuildStatistics 1)).store.elsewhere 1 =
        leagueRejudged.store.elsewhere 1 ∧
      (leagueRejudged.after (.applyRejudging 1 none)).store.judgings.rows.map Judging.active =
        [false, true, true, false] := by
  have hreach := reachable_leagueRejudged
  have hwithin : ∀ q ∈ leagueRejudged.store.rejudgings.rows, q.id = 1 → q.contestId = 1 := by
    decide +kernel
  have hjudgings : (leagueRejudged.store.elsewhere 1).judgings.map (fun entry => entry.1.id) =
      [2, 4] := by decide +kernel
  have hstatistics : (leagueRejudged.store.elsewhere 1).statistics = [⟨2, 1, 1, 1, 0⟩] := by
    decide +kernel
  have hactive : (leagueRejudged.after (.applyRejudging 1 none)).store.judgings.rows.map
      Judging.active = [false, true, true, false] := by decide +kernel
  have happly : (Operation.applyRejudging 1 none).IsWithin leagueRejudged.store 1 := hwithin
  have hcancel : (Operation.cancelRejudging 1 none).IsWithin leagueRejudged.store 1 := hwithin
  have hbatch : (Operation.batchRejudge { contestId := 1 } none false).IsWithin
      leagueRejudged.store 1 := rfl
  have hrebuild : (Operation.rebuildStatistics 1).IsWithin leagueRejudged.store 1 := rfl
  exact ⟨hreach, hjudgings, hstatistics, elsewhere_perform hreach happly contestContext,
    elsewhere_perform hreach hcancel contestContext, elsewhere_perform hreach hbatch contestContext,
    elsewhere_perform hreach hrebuild contestContext, hactive⟩

end World

end JudgeQueue
