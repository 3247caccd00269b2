import JudgeQueue.Proofs.Ledger.Balance
import JudgeQueue.Proofs.Ledger.Merge
import JudgeQueue.Proofs.Ledger.Owners
/-!
# Changes — what lies outside of a contest

A contest owns its submissions, the judgings and runs of these, its rows of
the statistics and its rejudgings. What is elsewhere is all that other contests
own, and a change that stays within a contest shows nowhere in it. Judgings and
runs do not name their contest, so whether one is elsewhere is read off its
submission.
-/

namespace JudgeQueue

open StatisticsDelta

/-- What other contests than one own. -/
structure Elsewhere where
  submissions : List Submission
  /-- The judgings, each with its runs. -/
  judgings : List (Judging × List Run)
  statistics : List StatisticsRow
  rejudgings : List Rejudging

namespace Store

/-- The submissions of other contests. -/
def submissionsElsewhere (s : Store) (contestId : Int) : List Submission :=
  s.submissions.filter fun r => r.contestId ≠ contestId

/-- Whether a submission belongs to another contest. -/
def isElsewhere (s : Store) (contestId submissionId : Int) : Bool :=
  (s.submissionsElsewhere contestId).any fun r => r.id = submissionId

/-- The judgings of submissions of other contests. -/
def judgingsElsewhere (s : Store) (contestId : Int) : List Judging :=
  s.judgings.filter fun j => s.isElsewhere contestId j.submissionId

/-- All that other contests own. -/
def elsewhere (s : Store) (contestId : Int) : Elsewhere where
  submissions := s.submissionsElsewhere contestId
  judgings := (s.judgingsElsewhere contestId).map fun j => (j, s.runsOf j.id)
  statistics := s.statistics.filter fun row => row.contestId ≠ contestId
  rejudgings := s.rejudgings.filter fun q => q.contestId ≠ contestId

variable {s s' : Store} {c : Int}

/-! ## Telling whether something is elsewhere -/

theorem isElsewhere_iff {id : Int} :
    s.isElsewhere c id = true ↔ ∃ r ∈ s.submissions, r.contestId ≠ c ∧ r.id = id := by
  simp [isElsewhere, submissionsElsewhere, and_assoc]

/-- A submission of the contest is not elsewhere. -/
theorem isElsewhere_eq_false {r : Submission} (hr : r ∈ s.submissions) (hc : r.contestId = c) :
    s.isElsewhere c r.id = false := by
  refine Bool.eq_false_iff.mpr fun h => ?_
  obtain ⟨t, ht, hne, hid⟩ := isElsewhere_iff.mp h
  rw [submission_eq ht hr hid] at hne
  exact hne hc

/-- Submissions that look alike elsewhere tell alike whether one is. -/
theorem isElsewhere_congr (h : s'.submissionsElsewhere c = s.submissionsElsewhere c) :
    s'.isElsewhere c = s.isElsewhere c := by
  funext id
  rw [isElsewhere, isElsewhere, h]

/-- **Stores look alike elsewhere** if their submissions, judgings, rows and
rejudgings do, and the judgings have the same runs. -/
theorem elsewhere_congr (hsub : s'.submissionsElsewhere c = s.submissionsElsewhere c)
    (hjud : (s'.judgings.filter fun j => s.isElsewhere c j.submissionId) = s.judgingsElsewhere c)
    (hruns : ∀ j ∈ s.judgings, s.isElsewhere c j.submissionId = true →
      s'.runsOf j.id = s.runsOf j.id)
    (hstat : (s'.statistics.filter fun row => row.contestId ≠ c) =
      s.statistics.filter fun row => row.contestId ≠ c)
    (hrej : (s'.rejudgings.filter fun q => q.contestId ≠ c) =
      s.rejudgings.filter fun q => q.contestId ≠ c) :
    s'.elsewhere c = s.elsewhere c := by
  have hjudgings : s'.judgingsElsewhere c = s.judgingsElsewhere c := by
    rw [judgingsElsewhere, isElsewhere_congr hsub, hjud]
  have hwith : ((s.judgingsElsewhere c).map fun j => (j, s'.runsOf j.id)) =
      (s.judgingsElsewhere c).map fun j => (j, s.runsOf j.id) := by
    refine List.map_congr_left fun j hj => ?_
    obtain ⟨hmem, helse⟩ := Table.mem_filter.mp hj
    rw [hruns j hmem helse]
  rw [elsewhere, elsewhere, hsub, hjudgings, hwith, hstat, hrej]

/-! ## Judgings and submissions of the contest -/

/-- Changing judgings of the contest, which keep their submissions. -/
theorem judgingsElsewhere_update {p : Judging → Bool} {f : Judging → Judging}
    (hf : ∀ j, key (f j) = key j) (hsub : ∀ j, (f j).submissionId = j.submissionId)
    (h : ∀ j ∈ s.judgings, p j = true → s.isElsewhere c j.submissionId = false) :
    ((s.judgings.update p f hf).filter fun j => s.isElsewhere c j.submissionId) =
      s.judgingsElsewhere c := by
  refine Table.filter_update_of_not hf fun j hj hp => ?_
  rw [hsub, h j hj hp]
  exact ⟨rfl, rfl⟩

/-- Queueing a judging of the contest. -/
theorem elsewhere_queue (hle : ∀ j ∈ s.judgings, j.id ≤ s.lastJudging) {new : NewJudging}
    (h : s.isElsewhere c new.submissionId = false) : (s.queue new).elsewhere c = s.elsewhere c := by
  have hfresh : ∀ j ∈ s.judgings, key j = key (new.queued (s.lastJudging + 1)) →
      s.isElsewhere c j.submissionId = false := by
    intro j hj hkey
    have hid : j.id = s.lastJudging + 1 := hkey
    have := hle j hj
    omega
  exact elsewhere_congr rfl (Table.filter_insert_of_not h hfresh) (fun _ _ _ => rfl) rfl rfl

/-- Queueing several. -/
theorem elsewhere_foldl_queue (hle : ∀ j ∈ s.judgings, j.id ≤ s.lastJudging)
    {news : List NewJudging} (h : ∀ new ∈ news, s.isElsewhere c new.submissionId = false) :
    (news.foldl queue s).elsewhere c = s.elsewhere c := by
  induction news generalizing s with
  | nil => rfl
  | cons new rest ih =>
    obtain ⟨hnew, hrest⟩ := List.forall_mem_cons.mp h
    have hnext : ∀ j ∈ (s.queue new).judgings, j.id ≤ s.lastJudging + 1 := by
      intro j hj
      rcases Table.mem_insert.mp hj with rfl | ⟨hj, -⟩
      · exact Int.le_refl _
      · have := hle j hj
        omega
    exact (ih hnext hrest).trans (elsewhere_queue hle hnew)

/-- Rejudging a submission of the contest. -/
theorem elsewhere_rejudge (hs : s.Numbered) {id : Int} (h : s.isElsewhere c id = false)
    (fullTest : Bool) : (s.rejudge id fullTest).elsewhere c = s.elsewhere c := by
  have hretired : ∀ j ∈ s.judgings, decide (j.submissionId = id) = true →
      s.isElsewhere c j.submissionId = false := by
    intro j _ hsub
    rwa [of_decide_eq_true hsub]
  have hfresh : ∀ b ∈ s.judgings.update (fun j => j.submissionId = id) Judging.retired
      Judging.key_retired, b.id = s.lastJudging + 1 → s.isElsewhere c b.submissionId = false := by
    intro b hb hid
    obtain ⟨a, ha, rfl⟩ := Table.mem_update.mp hb
    refine absurd ?_ (hs.ne_next ha)
    split at hid <;> exact hid
  refine elsewhere_congr rfl ?_ (fun _ _ _ => rfl) rfl rfl
  rw [judgings_rejudge]
  exact (Table.filter_insert_of_not (q := fun j : Judging => s.isElsewhere c j.submissionId) h
    hfresh).trans (judgingsElsewhere_update Judging.key_retired (fun _ => rfl) hretired)

/-- Moving submissions of the contest into a rejudging or out of any. -/
theorem elsewhere_move {p : Submission → Bool} {rejudgingId : Option Int}
    (h : ∀ r ∈ s.submissions, p r = true → r.contestId = c) :
    (s.submissions.update p (.moved rejudgingId) (Submission.key_moved rejudgingId)).filter
      (fun r => r.contestId ≠ c) = s.submissionsElsewhere c := by
  refine Table.filter_update_of_not (Submission.key_moved rejudgingId) fun r hr hp => ?_
  have hmoved : (r.moved rejudgingId).contestId = r.contestId := rfl
  rw [hmoved, h r hr hp]
  simp

/-! ## Rejudgings of the contest -/

/-- A rejudging is one of the contest, and so are the submissions that it
holds. -/
structure Confined (s : Store) (contestId id : Int) : Prop where
  rejudging : ∀ q ∈ s.rejudgings, q.id = id → q.contestId = contestId
  submission : ∀ r ∈ s.submissions, r.rejudgingId = some id → r.contestId = contestId
  candidate : ∀ j ∈ s.judgings, j.rejudgingId = some id →
    s.isElsewhere contestId j.submissionId = false

/-- **The submissions of an open rejudging** are of its contest: its candidates
name submissions that name it, and these were enrolled by their contest. -/
theorem Sound.confined (hs : s.Sound) (he : s.Enrolled) {q : Rejudging} (hq : q ∈ s.rejudgings)
    (hopen : q.applied = none) : s.Confined q.contestId q.id := by
  have hcontest : ∀ r ∈ s.submissions, r.rejudgingId = some q.id → r.contestId = q.contestId := by
    intro r hr hid
    obtain ⟨p, hp, hpid, -, hrp, -⟩ := he r hr q.id hid
    rwa [rejudging_eq hp hq hpid] at hrp
  refine ⟨fun p hp hid => by rw [rejudging_eq hp hq hid], hcontest, fun j hj hid => ?_⟩
  obtain ⟨-, -, r, hr, hsub, hrid⟩ := hs.membership.candidate q hq hopen j hj hid
  rw [← hsub]
  exact isElsewhere_eq_false hr (hcontest r hr hrid)

theorem Confined.decided {id : Int} (h : s.Confined c id) (applied : Bool) (now : Instant)
    (operator : Option Int) :
    ((s.decided id applied now operator).filter fun q => q.contestId ≠ c) =
      s.rejudgings.filter fun q => q.contestId ≠ c := by
  refine Table.filter_update_of_not (fun q => q.key_decide applied now operator)
    fun q hq hid => ?_
  have hcontest : (q.decide applied now operator).contestId = q.contestId := rfl
  rw [hcontest, h.rejudging q hq (of_decide_eq_true hid)]
  simp

theorem Confined.release {id : Int} (h : s.Confined c id) :
    (s.release id).filter (fun r => r.contestId ≠ c) = s.submissionsElsewhere c :=
  elsewhere_move fun r hr hid => h.submission r hr (of_decide_eq_true hid)

/-- **Applying a rejudging** does not show outside of its contest, but for the
statistics. -/
theorem Confined.applyRejudging {id : Int} (h : s.Confined c id) (now : Instant)
    (operator : Option Int) : (s.applyRejudging id now operator).elsewhere c = s.elsewhere c := by
  have hheld : ∀ j ∈ s.judgings, s.holds id j.submissionId = true →
      s.isElsewhere c j.submissionId = false := by
    intro j _ hholds
    obtain ⟨i, hi, hsub, hid⟩ := holds_iff.mp hholds
    rw [← hsub]
    exact h.candidate i hi hid
  exact elsewhere_congr h.release
    (judgingsElsewhere_update (Judging.key_settled id) (fun _ => rfl) hheld) (fun _ _ _ => rfl) rfl
    (h.decided true now operator)

/-- **Cancelling a rejudging** does not show outside of its contest. The runs
that go are those of its candidates. -/
theorem Confined.cancelRejudging {id : Int} (h : s.Confined c id) (now : Instant)
    (operator : Option Int) : (s.cancelRejudging id now operator).elsewhere c = s.elsewhere c := by
  have hcandidate : ∀ j ∈ s.judgings, s.isElsewhere c j.submissionId = true →
      j.rejudgingId ≠ some id := by
    intro j hj helse hid
    rw [h.candidate j hj hid] at helse
    cases helse
  refine elsewhere_congr h.release ?judgings ?runs rfl (h.decided false now operator)
  case judgings =>
    rw [judgings_cancelRejudging, Table.filter_update_of_not, Table.filter_keep_of_not]
    · rfl
    · intro j hj helse
      simp [hcandidate j hj helse]
    · intro j hj hclaimed
      rw [Bool.and_eq_true, decide_eq_true_eq] at hclaimed
      have hsub : ((JudgingPatch.abandon now).apply j).submissionId = j.submissionId := rfl
      rw [hsub, h.candidate j (Table.mem_keep.mp hj).1 hclaimed.1]
      exact ⟨rfl, rfl⟩
  case runs =>
    intro j hj helse
    refine Table.filter_keep_of_not fun n _ hn => ?_
    rw [of_decide_eq_true hn, Bool.not_eq_true', ← Bool.not_eq_true, List.contains_iff_mem]
    intro hdoomed
    obtain ⟨i, hi, hid⟩ := List.mem_map.mp hdoomed
    obtain ⟨hi, hqueued⟩ := Table.mem_filter.mp hi
    rw [judging_eq hi hj hid, Bool.and_eq_true, decide_eq_true_eq] at hqueued
    exact hcandidate j hj helse hqueued.1

/-! ## The ledger elsewhere -/

/-- The standing of a submission at a key of another contest. -/
theorem standing_elsewhere (h : s'.elsewhere c = s.elsewhere c) {k : StatisticsKey}
    (hk : k.contestId ≠ c) (id : Int) : s'.standing id = some k ↔ s.standing id = some k := by
  have hsub : s'.submissionsElsewhere c = s.submissionsElsewhere c :=
    congrArg Elsewhere.submissions h
  have hread : ∀ t : Store, t.standing id = some k ↔
      ∃ r ∈ t.submissionsElsewhere c, r.id = id ∧ countsAt k r = true := by
    intro t
    rw [standing_eq_some_iff]
    refine exists_congr fun r => ?_
    rw [submissionsElsewhere, Table.mem_filter, and_assoc]
    refine and_congr_right fun _ => ⟨fun hr => ⟨?_, hr⟩, And.right⟩
    have hkey : r.statisticsKey = k := by
      have hcounts := hr.2
      rw [countsAt, Bool.and_eq_true] at hcounts
      exact of_decide_eq_true hcounts.2
    have hcontest : r.contestId = k.contestId := congrArg StatisticsKey.contestId hkey
    rw [hcontest]
    exact decide_eq_true hk
  rw [hread s', hread s, hsub]

/-- **The tally of another contest** is that of the judgings elsewhere. -/
theorem tally_elsewhere {k : StatisticsKey} (hk : k.contestId ≠ c) :
    s.tally k = ((s.judgingsElsewhere c).map (s.flagged k)).sum := by
  rw [judgingsElsewhere, Table.sum_filter, tally]
  refine Table.total_congr fun j _ => ?_
  cases helse : s.isElsewhere c j.submissionId with
  | true => rfl
  | false =>
    have hof : s.isOf k.contestId j.submissionId = false := by
      refine Bool.eq_false_iff.mpr fun hof => ?_
      obtain ⟨r, hr, hc, hid⟩ := isOf_iff.mp hof
      rw [← Bool.not_eq_true] at helse
      exact helse (isElsewhere_iff.mpr ⟨r, hr, hc ▸ hk, hid⟩)
    rw [flagged, worth_eq_zero_of_not_isOf hof, ite_self, if_neg Bool.false_ne_true]

/-- So it is the same where stores look alike elsewhere. -/
theorem tally_congr_elsewhere (h : s'.elsewhere c = s.elsewhere c) {k : StatisticsKey}
    (hk : k.contestId ≠ c) : s'.tally k = s.tally k := by
  have hflagged : s'.flagged k = s.flagged k := by
    funext j
    rw [flagged, flagged, worth, worth]
    simp only [standing_elsewhere h hk]
  have hjud : s'.judgingsElsewhere c = s.judgingsElsewhere c := by
    have hfirst := congrArg (fun e : Elsewhere => e.judgings.map Prod.fst) h
    simpa [elsewhere, List.map_map, Function.comp_def] using hfirst
  rw [tally_elsewhere hk, tally_elsewhere hk, hflagged, hjud]

/-! ## The statistics of the contest -/

/-- A row of the contest is not seen elsewhere. -/
theorem statistics_insert_elsewhere {t : Table StatisticsRow} {row : StatisticsRow}
    (h : row.contestId = c) :
    ((t.insert row).filter fun r => r.contestId ≠ c) = t.filter fun r => r.contestId ≠ c := by
  refine Table.filter_insert_of_not (by simp [h]) fun r _ hkey => ?_
  have hcontest : r.contestId = row.contestId := congrArg StatisticsKey.contestId hkey
  simp [hcontest, h]

/-- Merging deltas of the contest. -/
theorem elsewhere_mergeStatistics {ds : List StatisticsDelta}
    (h : ∀ d ∈ ds, d.statisticsKey.contestId = c) :
    (s.mergeStatistics ds).elsewhere c = s.elsewhere c := by
  have hstat : ∀ t : Table StatisticsRow,
      ((ds.foldl Table.count t).filter fun r => r.contestId ≠ c) =
        t.filter fun r => r.contestId ≠ c := by
    induction ds with
    | nil => exact fun _ => rfl
    | cons d rest ih =>
      intro t
      obtain ⟨hd, hrest⟩ := List.forall_mem_cons.mp h
      rw [List.foldl_cons, ih hrest, Table.count_eq_insert, statistics_insert_elsewhere]
      have hkey : ((t.row d.statisticsKey).add d).statisticsKey = d.statisticsKey :=
        Table.statisticsKey_row
      exact (congrArg StatisticsKey.contestId hkey).trans hd
  exact elsewhere_congr rfl rfl (fun _ _ _ => rfl) (hstat s.statistics) rfl

/-- **Merged deltas that bridge two stores** which look alike elsewhere are of
the contest: at a key of another contest the tally does not move, and what
cancels out leaves no delta. -/
theorem elsewhere_merged {ds : List StatisticsDelta} (h : s'.elsewhere c = s.elsewhere c)
    (hds : s.Bridges ds s') : (s'.mergeStatistics (mergeAll ds)).elsewhere c = s.elsewhere c := by
  refine (elsewhere_mergeStatistics fun d hd => ?_).trans h
  by_contra hne
  have hsum := hds d.statisticsKey
  rw [tally_congr_elsewhere h hne] at hsum
  exact exists_mem_mergeAll_iff.mp ⟨d, hd, rfl⟩ (left_eq_add.mp hsum)

/-- **Rebuilding the contest.** -/
theorem elsewhere_rebuild (s : Store) (c : Int) : (s.rebuild c).elsewhere c = s.elsewhere c := by
  have hrows : ∀ (rows : List StatisticsRow) (t : Table StatisticsRow),
      (∀ row ∈ rows, row.contestId = c) →
      ((rows.foldl Table.insert t).filter fun r => r.contestId ≠ c) =
        t.filter fun r => r.contestId ≠ c := by
    intro rows
    induction rows with
    | nil => exact fun _ _ => rfl
    | cons row rest ih =>
      intro t h
      obtain ⟨hrow, hrest⟩ := List.forall_mem_cons.mp h
      rw [List.foldl_cons, ih _ hrest, statistics_insert_elsewhere hrow]
  have hown : ∀ j ∈ s.judgings, s.isOf c j.submissionId = true →
      s.isElsewhere c j.submissionId = false := by
    intro j _ hof
    obtain ⟨r, hr, hc, hid⟩ := isOf_iff.mp hof
    rw [← hid]
    exact isElsewhere_eq_false hr hc
  have hstat := hrows (s.standings c) (s.statistics.keep fun row => row.contestId ≠ c)
    fun row hrow => contestId_of_mem_standings hrow
  rw [Table.filter_keep_of_not fun _ _ h => h] at hstat
  exact elsewhere_congr rfl (judgingsElsewhere_update Judging.key_reflagged (fun _ => rfl) hown)
    (fun _ _ _ => rfl) hstat rfl

end Store

end JudgeQueue
