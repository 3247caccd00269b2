import JudgeQueue.Proofs.Ledger.Counters
import JudgeQueue.Proofs.Table.Total
import JudgeQueue.Proofs.Transaction.Ensures
import JudgeQueue.Standings
/-!
# The ledger — what the flags come to

The statistics are kept twice: as counters of keys, and as flags of the
judgings that are counted. The tally reads the second: it sums up what each
flagged judging is worth at a key. A ledger is balanced while counters and
tally agree. Setting and clearing flags moves the tally by the worth of the
judgings that change, and the deltas that `Standings.count` and
`Standings.uncount` answer come to just that.
-/

namespace JudgeQueue

open Transaction StatisticsDelta

namespace Store

/-- The key under which a submission counts, unless it is ignored. -/
def standing (s : Store) (submissionId : Int) : Option StatisticsKey :=
  (s.submissions.find? submissionId).bind fun r =>
    if r.ignored then none else some r.statisticsKey

/-- What a judging adds to the counters of a key while it is counted. -/
def worth (s : Store) (k : StatisticsKey) (j : Judging) : Int × Int :=
  if j.hasCountedVerdict ∧ s.standing j.submissionId = some k then
    (1, if j.isAccepted then 1 else 0)
  else 0

/-- What a judging adds to the counters of a key by its flag. -/
def flagged (s : Store) (k : StatisticsKey) (j : Judging) : Int × Int :=
  if j.counted then s.worth k j else 0

/-- What the flagged judgings come to at a key. -/
def tally (s : Store) (k : StatisticsKey) : Int × Int :=
  s.judgings.total (s.flagged k)

/-- The counters of every key agree with the flags. -/
def Balanced (s : Store) : Prop :=
  ∀ k, s.statistics.counters k = s.tally k

/-- Some deltas come to what the tally of one store lacks of another's. -/
def Bridges (s : Store) (ds : List StatisticsDelta) (s' : Store) : Prop :=
  ∀ k, s'.tally k = s.tally k + sumAt k ds

variable {s s' : Store} {k : StatisticsKey}

/-! ## What the tally reads -/

/-- Worth reads the standing of the submission only. -/
theorem worth_congr (h : ∀ id, s'.standing id = s.standing id) : s'.worth k = s.worth k := by
  funext j
  rw [worth, worth, h]

theorem flagged_congr (h : ∀ id, s'.standing id = s.standing id) :
    s'.flagged k = s.flagged k := by
  funext j
  rw [flagged, flagged, worth_congr h]

/-- And of the judging how it ended. -/
theorem worth_eq {j j' : Judging} (hs : j'.submissionId = j.submissionId)
    (hl : j'.lifecycle = j.lifecycle) (hv : j'.verdict = j.verdict) :
    s.worth k j' = s.worth k j := by
  have hcounted : j'.hasCountedVerdict = j.hasCountedVerdict := by
    simp only [Judging.hasCountedVerdict, Judging.isFinalized, hl, hv]
  have haccepted : j'.isAccepted = j.isAccepted := by
    simp only [Judging.isAccepted, Judging.isFinalized, hl, hv]
  rw [worth, worth, hcounted, haccepted, hs]

theorem flagged_eq_zero {j : Judging} (h : j.counted = false) : s.flagged k j = 0 := by
  rw [flagged, h, if_neg Bool.false_ne_true]

/-- Rejudgings that submissions enter and leave do not change their
standing. -/
theorem standing_update {p : Submission → Bool} {f : Submission → Submission}
    (hf : ∀ r, key (f r) = key r) (hi : ∀ r, (f r).ignored = r.ignored)
    (hk : ∀ r, (f r).statisticsKey = r.statisticsKey)
    (h : s'.submissions = s.submissions.update p f hf) (id : Int) :
    s'.standing id = s.standing id := by
  rw [standing, standing, h, Table.find?_update]
  cases s.submissions.find? id with
  | none => rfl
  | some r =>
    simp only [Option.map_some, Option.bind_some]
    split <;> simp [hi, hk]

/-- A store with the submissions and judgings of another has its tally. -/
theorem tally_congr (hj : s'.judgings = s.judgings) (hs : ∀ id, s'.standing id = s.standing id) :
    s'.tally k = s.tally k := by
  rw [tally, tally, hj, flagged_congr hs]

/-! ## Contributions -/

/-- The contributions of judgings come to what they are worth, where their
submissions are looked up as the store has them. -/
theorem sumAt_contributionsOf {submissions : List Submission} {judgings : List Judging}
    (h : ∀ j ∈ judgings, submissions.find? (fun r => r.id = j.submissionId) =
      s.submissions.find? j.submissionId) :
    sumAt k (Standings.contributionsOf submissions judgings) = (judgings.map (s.worth k)).sum := by
  induction judgings with
  | nil => rfl
  | cons j rest ih =>
    have hrest := ih fun i hi => h i (List.mem_cons_of_mem _ hi)
    have hworth : sumAt k (Standings.contributionsOf submissions [j]) = s.worth k j := by
      simp only [Standings.contributionsOf, List.filterMap_cons, List.filterMap_nil]
      rw [h j List.mem_cons_self, worth, standing]
      cases s.submissions.find? j.submissionId with
      | none => simp
      | some r =>
        cases hc : j.hasCountedVerdict <;> cases hi : r.ignored <;>
          simp [contribution, hc, hi, StatisticsDelta.counters]
    have hcons : Standings.contributionsOf submissions (j :: rest) =
        Standings.contributionsOf submissions [j] ++
          Standings.contributionsOf submissions rest := by
      rw [Standings.contributionsOf, ← List.singleton_append, List.filterMap_append]
      rfl
    rw [hcons, sumAt_append, hrest, hworth, List.map_cons, List.sum_cons]

/-- A submission that a filter admits is found among those it admits. -/
theorem find?_filter_submissions {f : SubmissionFilter} {id : Int}
    (h : ∀ r ∈ s.submissions, r.id = id → f.admits r = true) :
    (s.submissions.filter f.admits).find? (fun r => r.id = id) = s.submissions.find? id := by
  have hrows : ∀ rows : List Submission, (∀ r ∈ rows, r.id = id → f.admits r = true) →
      (rows.filter f.admits).find? (fun r => r.id = id) = rows.find? fun r => r.id = id := by
    intro rows
    induction rows with
    | nil => exact fun _ => rfl
    | cons r rest ih =>
      intro h
      have hrest := ih fun q hq => h q (List.mem_cons_of_mem _ hq)
      rw [List.filter_cons, List.find?_cons]
      by_cases hid : r.id = id
      · simp [h r List.mem_cons_self hid, hid]
      · cases f.admits r <;> simp [hid, hrest]
  exact hrows s.submissions.rows h

/-- **Contributions are worth.** They are read off the store, which stays. -/
theorem ensures_contributions {judgings : List Judging} :
    (Standings.contributions judgings).Ensures s fun ds s' =>
      s' = s ∧ ∀ k, sumAt k ds = (judgings.map (s.worth k)).sum := by
  unfold Standings.contributions
  split
  · next h =>
    rw [ensures_pure]
    rw [List.isEmpty_iff] at h
    subst h
    exact ⟨rfl, fun k => rfl⟩
  · simp only [ensures_bind, ensures_ask, Query.run, ensures_pure]
    refine ⟨trivial, fun k => sumAt_contributionsOf fun j hj => find?_filter_submissions ?_⟩
    intro r _ hr
    have hmem : r.id ∈ judgings.map Judging.submissionId := hr ▸ List.mem_map_of_mem hj
    simpa [SubmissionFilter.admits, SubmissionFilter.ofIds] using hmem

/-! ## Changes of the judgings -/

/-- A change that keeps the flags and what flagged judgings are worth keeps
the tally. -/
theorem tally_update {p : Judging → Bool} {f : Judging → Judging} {hf : ∀ j, key (f j) = key j}
    (hj : s'.judgings = s.judgings.update p f hf) (hs : ∀ id, s'.standing id = s.standing id)
    (h : ∀ j ∈ s.judgings, p j = true → s.flagged k (f j) = s.flagged k j) :
    s'.tally k = s.tally k := by
  rw [tally, tally, hj, flagged_congr hs, Table.total_update_of_eq h]

/-- A judging is queued without a flag. -/
theorem tally_insert {j : Judging} (hj : s'.judgings = s.judgings.insert j)
    (hs : ∀ id, s'.standing id = s.standing id) (hfresh : ∀ i ∈ s.judgings, i.id ≠ j.id)
    (hc : j.counted = false) : s'.tally k = s.tally k := by
  rw [tally, tally, hj, flagged_congr hs, Table.total_insert hfresh, flagged_eq_zero hc, zero_add]

/-- Judgings without a flag may be dropped. -/
theorem tally_keep {p : Judging → Bool} (hj : s'.judgings = s.judgings.keep p)
    (hs : ∀ id, s'.standing id = s.standing id)
    (h : ∀ j ∈ s.judgings, p j = false → j.counted = false) : s'.tally k = s.tally k := by
  rw [tally, tally, hj, flagged_congr hs,
    Table.total_keep_of_eq fun j hm hp => flagged_eq_zero (h j hm hp)]

theorem judgings_setJudgingsCounted {f : JudgingFilter} {c : Bool} :
    (s.setJudgingsCounted f c).2.judgings =
      s.judgings.update (fun j => j.counted ≠ c && f.admits j) (fun j => { j with counted := c })
        fun _ => rfl := rfl

/-- **Setting flags** adds the worth of the judgings that change. -/
theorem tally_setJudgingsCounted_true {f : JudgingFilter} :
    (s.setJudgingsCounted f true).2.tally k =
      s.tally k + ((s.setJudgingsCounted f true).1.map (s.worth k)).sum := by
  have hworth : ((s.setJudgingsCounted f true).1.map (s.worth k)).sum =
      s.judgings.total fun j => if j.counted ≠ true && f.admits j then s.worth k j else 0 := by
    rw [setJudgingsCounted, List.map_map, ← Table.sum_filter]
    rfl
  rw [hworth, tally, tally, ← Table.total_add, judgings_setJudgingsCounted, Table.total_update]
  refine Table.total_congr fun j _ => ?_
  change s.flagged k _ = _
  cases hc : j.counted <;> cases f.admits j <;> simp [flagged, hc]
  exact worth_eq rfl rfl rfl

/-- **Clearing flags** takes the worth of the judgings that change. -/
theorem tally_setJudgingsCounted_false {f : JudgingFilter} :
    s.tally k = (s.setJudgingsCounted f false).2.tally k +
      ((s.setJudgingsCounted f false).1.map (s.worth k)).sum := by
  have hworth : ((s.setJudgingsCounted f false).1.map (s.worth k)).sum =
      s.judgings.total fun j => if j.counted ≠ false && f.admits j then s.worth k j else 0 := by
    rw [setJudgingsCounted, List.map_map, ← Table.sum_filter]
    rfl
  rw [hworth, tally, tally, judgings_setJudgingsCounted, Table.total_update, ← Table.total_add]
  refine Table.total_congr fun j _ => ?_
  change _ = s.flagged k _ + _
  cases hc : j.counted <;> cases f.admits j <;> simp [flagged, hc]

/-! ## Counting and retracting -/

/-- **Counting** flags the active judgings that have ended, and its deltas
bridge the stores. -/
theorem ensures_count {f : JudgingFilter} :
    (Standings.count f).Ensures s fun ds s' =>
      s' = (s.setJudgingsCounted
        { f with active := some true, lifecycle := some .finalized } true).2 ∧
      s.Bridges ds s' := by
  simp only [Standings.count, ensures_bind, ensures_ask, Query.run]
  refine ensures_contributions.mono ?_
  rintro ds s' ⟨rfl, hds⟩
  refine ⟨rfl, fun k => ?_⟩
  rw [hds, tally_setJudgingsCounted_true]
  rfl

/-- **Retracting** clears flags, and its deltas bridge the stores. -/
theorem ensures_uncount {f : JudgingFilter} :
    (Standings.uncount f).Ensures s fun ds s' =>
      s' = (s.setJudgingsCounted f false).2 ∧ s.Bridges ds s' := by
  simp only [Standings.uncount, ensures_bind, ensures_ask, Query.run, ensures_pure]
  refine ensures_contributions.mono ?_
  rintro ds s' ⟨rfl, hds⟩
  refine ⟨rfl, fun k => ?_⟩
  rw [sumAt_negated, hds, tally_setJudgingsCounted_false (f := f) (s := s)]
  change _ = _ + (List.map (s.worth k) _).sum + -(List.map (s.worth k) _).sum
  rw [add_neg_cancel_right]

/-- Stores are bridged one after another. -/
theorem Bridges.trans {s₁ s₂ : Store} {ds es : List StatisticsDelta} (h : s.Bridges ds s₁)
    (h' : s₁.Bridges es s₂) : s.Bridges (ds ++ es) s₂ := by
  intro k
  rw [h' k, h k, sumAt_append, add_assoc]

/-- Where the tally stays, no deltas are needed. -/
theorem bridges_nil (h : ∀ k, s'.tally k = s.tally k) : s.Bridges [] s' := by
  intro k
  rw [h k, sumAt_nil, add_zero]

/-- **Merging the deltas of a bridge balances the store** at its end. -/
theorem Bridges.balanced {ds : List StatisticsDelta} (h : s.Bridges ds s') (hb : s.Balanced)
    (hstat : s'.statistics = s.statistics) : (s'.mergeStatistics ds).Balanced := by
  intro k
  have htally : (s'.mergeStatistics ds).tally k = s'.tally k := rfl
  rw [htally, h k, mergeStatistics, Table.counters_foldl_count, hstat, hb k]

end Store

end JudgeQueue
