import JudgeQueue.Proofs.Ledger.Tally
import JudgeQueue.Proofs.Sound.Keeps
/-!
# The ledger — every change keeps it balanced

Three kinds of changes meet the ledger. Most touch no judging that is
counted, so the tally stays. Rejudging, applying and counting move the tally
and merge the deltas that bridge it. A rebuild computes the counters of one
contest from nothing, and flags just what it has counted.
-/

namespace JudgeQueue

open StatisticsDelta

/-- **The flag that a rebuild gives** says whether the judging is active and has
ended. Only what has ended needs to be flagged for it to come out right. -/
theorem Judging.counted_reflagged {j : Judging} (h : j.counted = true → j.lifecycle = .finalized) :
    j.reflagged.counted = (j.active && j.isFinalized) := by
  rw [reflagged]
  cases hc : j.counted with
  | false => rw [Bool.or_false]
  | true => rw [isFinalized_iff.mpr (h hc), Bool.or_true]

namespace Store

variable {s s' : Store} {k : StatisticsKey}

/-- Where neither counters nor tally change, the ledger stays balanced. -/
theorem Balanced.of_tally (h : s.Balanced) (hstat : s'.statistics = s.statistics)
    (htally : ∀ k, s'.tally k = s.tally k) : s'.Balanced := by
  intro k
  rw [hstat, htally, h k]

/-! ## Judgings that are not counted -/

/-- Changing a judging that is not counted, and stays so, keeps the tally. -/
theorem tally_modify {j : Judging} {f : Judging → Judging} (hf : ∀ j, key (f j) = key j)
    (hjud : s'.judgings = s.judgings.modify j.id f hf)
    (hs : ∀ id, s'.standing id = s.standing id) (hj : j ∈ s.judgings) (hc : j.counted = false)
    (hc' : (f j).counted = false) : s'.tally k = s.tally k := by
  refine tally_update hjud hs fun i hi hid => ?_
  rw [judging_eq hi hj (of_decide_eq_true hid), flagged_eq_zero hc, flagged_eq_zero hc']

/-- A judging is queued. -/
theorem Sound.tally_queue (h : s.Sound) (new : NewJudging) : (s.queue new).tally k = s.tally k :=
  tally_insert rfl (fun _ => rfl) (fun _ hi => h.numbered.ne_next hi) rfl

theorem Sound.tally_handOut {j : Judging} (h : s.Sound) (hj : s.nextDispatchable = some j)
    (hostname : String) (now : Instant) : (s.handOut j.id hostname now).tally k = s.tally k := by
  obtain ⟨hmem, hl⟩ := mem_of_nextDispatchable hj
  have hc := h.counted_of_not_finalized hmem (by rw [hl]; decide)
  exact tally_modify (Judging.key_claimedBy · hostname now) rfl (fun _ => rfl) hmem hc hc

theorem Sound.tally_putBack {j : Judging} (h : s.Sound) (hj : s.nextDispatchable = some j) :
    (s.putBack j.id).tally k = s.tally k := by
  obtain ⟨hmem, hl⟩ := mem_of_nextDispatchable hj
  have hc := h.counted_of_not_finalized hmem (by rw [hl]; decide)
  exact tally_modify Judging.key_unclaimed rfl (fun _ => rfl) hmem hc hc

section Claimed

variable {j : Judging} (h : s.Sound) (hj : j ∈ s.judgings) (hl : j.lifecycle = .claimed)

include h hj hl

theorem Sound.counted_of_claimed : j.counted = false :=
  h.counted_of_not_finalized hj (by rw [hl]; decide)

theorem Sound.tally_compile (success : Bool) (output : String) (now : Instant) :
    (s.compile j.id success output now).tally k = s.tally k := by
  have hc := h.counted_of_claimed hj hl
  refine tally_modify (Dispatch.key_compiled · success output now) rfl (fun _ => rfl) hj hc ?_
  cases success <;> exact hc

theorem Sound.tally_grade (problemId : Int) (reports : List RunReport) (now : Instant) :
    (s.grade j.id problemId reports now).tally k = s.tally k := by
  have hc := h.counted_of_claimed hj hl
  have hsub : (s.recordRuns j.id now reports).submissions = s.submissions :=
    recordRuns_congr Store.submissions fun _ _ => rfl
  refine tally_modify (Grading.key_graded · _ _ _ now) rfl (fun id => ?_) hj hc ?_
  · change ((s.recordRuns j.id now reports).submissions.find? id).bind _ = _
    rw [hsub]
    rfl
  · unfold Grading.graded
    simp only
    split <;> exact hc

theorem Sound.tally_replace (now : Instant) : (s.replace j now).tally k = s.tally k := by
  have hc := h.counted_of_claimed hj hl
  have hmem : j ∈ (s.queue (.replacing j)).judgings :=
    (mem_judgings_queue h.numbered).mpr (.inr hj)
  have hmodify : (s.replace j now).tally k = (s.queue (.replacing j)).tally k :=
    tally_modify (JudgingPatch.abandon now).key_apply rfl (fun _ => rfl) hmem hc hc
  rw [hmodify, h.tally_queue]

end Claimed

theorem Sound.tally_propose (h : s.Sound) (submissionId rejudgingId : Int) (j : Judging)
    (fullTest : Bool) : (s.propose submissionId rejudgingId j fullTest).tally k = s.tally k :=
  tally_insert rfl (standing_update (Submission.key_moved _) (fun _ => rfl) (fun _ => rfl) rfl)
    (fun _ hi => h.numbered.ne_next hi) rfl

/-- The candidates that a cancelled rejudging drops or abandons are not
counted. -/
theorem Sound.tally_cancel (h : s.Sound) (id : Int) (now : Instant) (operator : Option Int) :
    (s.cancelRejudging id now operator).tally k = s.tally k := by
  let kept : Store :=
    { s with judgings := s.judgings.keep fun j => !(j.rejudgingId = some id && j.isQueued) }
  have hkept : kept.tally k = s.tally k := by
    refine tally_keep rfl (fun _ => rfl) fun j hj hdoomed => ?_
    rw [Bool.not_eq_false', Bool.and_eq_true, Judging.isQueued_iff] at hdoomed
    exact h.counted_of_not_finalized hj (by rw [hdoomed.2]; decide)
  rw [← hkept]
  refine tally_update judgings_cancelRejudging
    (standing_update (Submission.key_moved none) (fun _ => rfl) (fun _ => rfl) rfl)
    fun j hj hclaimed => ?_
  rw [Bool.and_eq_true, Judging.isClaimed_iff] at hclaimed
  have hc := h.counted_of_claimed (Table.mem_keep.mp hj).1 hclaimed.2
  have hc' : ((JudgingPatch.abandon now).apply j).counted = false := hc
  rw [flagged_eq_zero hc, flagged_eq_zero hc']

/-! ## Bridges -/

/-- Rejudging submissions one after another is bridged by all deltas. -/
theorem bridges_rejudged {ds : List StatisticsDelta} (h : Rejudged s ds s') : s.Bridges ds s' := by
  induction h with
  | none => exact bridges_nil fun _ => rfl
  | next _ _ _ hds _ ih => exact hds.trans ih

theorem statistics_rejudged {ds : List StatisticsDelta} (h : Rejudged s ds s') :
    s'.statistics = s.statistics := by
  induction h with
  | none => rfl
  | next _ _ _ _ _ ih => exact ih

/-! ## Rebuilding a contest -/

/-- A submission is of a contest if one with its id is. -/
theorem isOf_iff {contestId id : Int} :
    s.isOf contestId id = true ↔ ∃ r ∈ s.submissions, r.contestId = contestId ∧ r.id = id := by
  simp [isOf, submissionsOf, SubmissionFilter.admits, SubmissionFilter.ofContest, and_assoc]

/-- A judging is worth something only at keys of its contest. -/
theorem worth_eq_zero_of_not_isOf {j : Judging} (h : s.isOf k.contestId j.submissionId = false) :
    s.worth k j = 0 := by
  refine if_neg fun hw => ?_
  obtain ⟨r, hr, hrk⟩ := Option.bind_eq_some_iff.mp hw.2
  have hkey : r.statisticsKey = k := by
    split at hrk
    · cases hrk
    · exact Option.some.inj hrk
  have hof : s.isOf k.contestId j.submissionId = true :=
    isOf_iff.mpr ⟨r, Table.mem_of_find? hr, by rw [← hkey]; rfl, Table.key_of_find? hr⟩
  rw [hof] at h
  cases h

/-- The rows of a contest are rows of its keys. -/
theorem contestId_of_mem_standings {contestId : Int} {row : StatisticsRow}
    (h : row ∈ s.standings contestId) : row.contestId = contestId := by
  rcases Table.mem_foldl_count (Table.mem_rows.mp h) with hempty | ⟨d, hd, hkey⟩
  · exact absurd hempty Table.not_mem_empty
  · rw [Standings.contributionsOf, List.mem_filterMap] at hd
    obtain ⟨j, -, hj⟩ := hd
    obtain ⟨r, hr, hcontribution⟩ := Option.bind_eq_some_iff.mp hj
    have hcontest : r.contestId = contestId := by
      have hmem := (Table.mem_filter.mp (List.mem_of_find?_eq_some hr)).2
      simpa [SubmissionFilter.admits, SubmissionFilter.ofContest] using hmem
    rw [contribution] at hcontribution
    split at hcontribution
    · cases hcontribution
    · rw [← Option.some.inj hcontribution] at hkey
      exact (congrArg StatisticsKey.contestId hkey).trans hcontest

/-- **The rows of a contest** come to what its active judgings that have ended
are worth. -/
theorem counters_standings :
    (((s.standings k.contestId).find? fun row => key row = k).map StatisticsRow.counters).getD 0 =
      s.judgings.total fun j => if j.active && j.isFinalized then s.worth k j else 0 := by
  have hrows : ∀ t : Table StatisticsRow,
      ((t.rows.find? fun row => key row = k).map StatisticsRow.counters).getD 0 = t.counters k := by
    intro t
    change ((t.find? k).map StatisticsRow.counters).getD 0 = ((t.find? k).getD _).counters
    cases t.find? k <;> rfl
  rw [standings, Standings.rowsOf, hrows, Table.counters_foldl_count, Table.counters_empty,
    zero_add, sumAt_contributionsOf, Table.sum_filter]
  · refine Table.total_congr fun j _ => ?_
    cases hof : s.isOf k.contestId j.submissionId with
    | true => rfl
    | false => simp [worth_eq_zero_of_not_isOf hof]
  · intro j hj
    rw [Table.mem_filter, Bool.and_eq_true] at hj
    obtain ⟨r, hr, hcontest, hid⟩ := isOf_iff.mp hj.2.1
    refine find?_filter_submissions fun t ht htid => ?_
    rw [submission_eq ht hr (htid.trans hid.symm)]
    simpa [SubmissionFilter.admits, SubmissionFilter.ofContest] using hcontest

/-- After a rebuild the rows of the contest are found first, and of the others
those that are not of it. -/
theorem find?_rebuild (contestId : Int) :
    (s.rebuild contestId).statistics.find? k =
      ((s.standings contestId).find? fun row => key row = k).or
        ((s.statistics.find? k).filter fun row => row.contestId ≠ contestId) := by
  have hnodup : ((s.standings contestId).map key).Nodup := Table.nodup_keys _
  rw [← Table.find?_keep]
  exact Table.find?_foldl_insert hnodup

/-- The rows of a contest are not found under the keys of another. -/
theorem find?_standings_of_ne {contestId : Int} (h : k.contestId ≠ contestId) :
    (s.standings contestId).find? (fun row => key row = k) = none := by
  rw [List.find?_eq_none]
  intro row hrow
  have hne : key row ≠ k := fun heq =>
    h ((congrArg StatisticsKey.contestId heq).symm.trans (contestId_of_mem_standings hrow))
  simpa using hne

/-- A row that is found under a key is of the contest of the key. -/
theorem contestId_of_find?_statistics {row : StatisticsRow} (h : s.statistics.find? k = some row) :
    row.contestId = k.contestId :=
  congrArg StatisticsKey.contestId (Table.key_of_find? h)

/-- Under the keys of the contest a rebuild leaves what it has computed. -/
theorem find?_rebuild_self :
    (s.rebuild k.contestId).statistics.find? k =
      (s.standings k.contestId).find? fun row => key row = k := by
  rw [find?_rebuild]
  have hnone : (s.statistics.find? k).filter (fun row => row.contestId ≠ k.contestId) = none := by
    rw [Option.filter_eq_none_iff]
    intro row hrow
    simp [contestId_of_find?_statistics hrow]
  rw [hnone, Option.or_none]

/-- Under all other keys it leaves what was there. -/
theorem find?_rebuild_of_ne {contestId : Int} (h : k.contestId ≠ contestId) :
    (s.rebuild contestId).statistics.find? k = s.statistics.find? k := by
  rw [find?_rebuild, find?_standings_of_ne h, Option.none_or]
  cases hrow : s.statistics.find? k with
  | none => rfl
  | some row =>
    rw [Option.filter_some, if_pos]
    rw [contestId_of_find?_statistics hrow]
    exact decide_eq_true h

/-- **A rebuild replaces the counters of its contest**, and no others. -/
theorem counters_rebuild (contestId : Int) :
    (s.rebuild contestId).statistics.counters k =
      if k.contestId = contestId then
        s.judgings.total fun j => if j.active && j.isFinalized then s.worth k j else 0
      else s.statistics.counters k := by
  rw [Table.counters, Table.row]
  by_cases hk : k.contestId = contestId
  · subst hk
    rw [if_pos rfl, find?_rebuild_self, ← counters_standings]
    cases (s.standings k.contestId).find? fun row => key row = k <;> rfl
  · rw [if_neg hk, find?_rebuild_of_ne hk]
    rfl

theorem judgings_rebuild (contestId : Int) :
    (s.rebuild contestId).judgings =
      s.judgings.update (fun j => s.isOf contestId j.submissionId) Judging.reflagged
        Judging.key_reflagged := rfl

/-- In a sound store a rebuild gets all flags right. -/
theorem Sound.counted_reflagged (h : s.Sound) {j : Judging} (hj : j ∈ s.judgings) :
    j.reflagged.counted = (j.active && j.isFinalized) :=
  Judging.counted_reflagged fun hc => ((h.ordered j hj).counted hc).2

/-- A judging of one contest is worth nothing at the keys of another. -/
theorem worth_eq_zero_of_isOf {contestId : Int} {j : Judging}
    (hof : s.isOf contestId j.submissionId = true) (hk : k.contestId ≠ contestId) :
    s.worth k j = 0 := by
  refine worth_eq_zero_of_not_isOf (Bool.eq_false_iff.mpr fun hof' => ?_)
  obtain ⟨r, hr, hc, hid⟩ := isOf_iff.mp hof
  obtain ⟨t, ht, hc', hid'⟩ := isOf_iff.mp hof'
  rw [submission_eq ht hr (hid'.trans hid.symm), hc] at hc'
  exact hk hc'.symm

/-- A rebuild flags the judgings of its contest that are active and have
ended. -/
theorem Sound.tally_rebuild (h : s.Sound) (contestId : Int) :
    (s.rebuild contestId).tally k =
      if k.contestId = contestId then
        s.judgings.total fun j => if j.active && j.isFinalized then s.worth k j else 0
      else s.tally k := by
  have htally : (s.rebuild contestId).tally k = s.judgings.total fun j =>
      s.flagged k (if s.isOf contestId j.submissionId then j.reflagged else j) := by
    rw [tally, judgings_rebuild, Table.total_update]
    rfl
  rw [htally]
  by_cases hk : k.contestId = contestId
  · subst hk
    rw [if_pos rfl]
    refine Table.total_congr fun j hj => ?_
    cases hof : s.isOf k.contestId j.submissionId with
    | true =>
      rw [if_pos rfl, flagged, h.counted_reflagged hj]
      rfl
    | false =>
      rw [if_neg Bool.false_ne_true, flagged, worth_eq_zero_of_not_isOf hof, ite_self, ite_self]
  · rw [if_neg hk, tally]
    refine Table.total_congr fun j hj => ?_
    cases hof : s.isOf contestId j.submissionId with
    | false => rw [if_neg Bool.false_ne_true]
    | true =>
      -- the flag changes, but not what the key sees of it
      have hzero : s.worth k j = 0 := worth_eq_zero_of_isOf hof hk
      have hzero' : s.worth k j.reflagged = 0 := hzero
      rw [if_pos rfl, flagged, flagged, hzero, hzero', ite_self, ite_self]

/-- **Rebuilding** makes the rows of a contest what its judgings come to. -/
theorem Sound.balanced_rebuild (h : s.Sound) (hb : s.Balanced) (contestId : Int) :
    (s.rebuild contestId).Balanced := by
  intro k
  rw [counters_rebuild, h.tally_rebuild, hb k]

/-! ## Every change -/

/-- **Every change keeps the ledger balanced.** -/
theorem Sound.balanced {now : Instant} {es : List Event} (h : s.Sound) (hb : s.Balanced)
    (hc : Change now s es s') : s'.Balanced := by
  cases hc with
  | addJudgehost | touchJudgehost | switchJudgehost | switchProblem | switchLanguage | raise
  | close | removeTestcase | openRejudging =>
    exact hb.of_tally rfl fun _ => tally_congr rfl fun _ => rfl
  | enqueue => exact hb.of_tally rfl fun _ => h.tally_queue _
  | claim hhost hj => exact hb.of_tally rfl fun _ => h.tally_handOut hj _ now
  | putBack hj => exact hb.of_tally rfl fun _ => h.tally_putBack hj
  | compile hj hheld success output =>
    have hl := Judging.lifecycle_of_isClaimedBy hheld
    exact hb.of_tally rfl fun _ => h.tally_compile hj hl success output now
  | @grade j _ _ reports hj hheld _ _ _ _ _ _ =>
    have hl := Judging.lifecycle_of_isClaimedBy hheld
    have hstat : (s.recordRuns j.id now reports).statistics = s.statistics :=
      recordRuns_congr Store.statistics fun _ _ => rfl
    exact hb.of_tally hstat fun _ => h.tally_grade hj hl _ reports now
  | requeue hj hheld _ =>
    exact hb.of_tally rfl fun _ => h.tally_replace hj (Judging.isClaimed_iff.mp hheld) now
  | rejudge hr hes =>
    have hbridge := bridges_rejudged hr
    refine Bridges.balanced (fun k => ?_) hb (statistics_rejudged hr)
    rw [hbridge k, hes k]
  | propose => exact hb.of_tally rfl fun _ => h.tally_propose _ _ _ _
  | apply _ _ _ _ hds => exact hds.balanced hb rfl
  | cancel _ _ operator => exact hb.of_tally rfl fun _ => h.tally_cancel _ now operator
  | count id hds => exact hds.balanced hb rfl
  | rebuild contestId => exact h.balanced_rebuild hb contestId

end Store

end JudgeQueue
