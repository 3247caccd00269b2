import JudgeQueue.Proofs.Ledger.Merge
import JudgeQueue.Proofs.Ledger.Owners
import JudgeQueue.Proofs.Ledger.Recount
/-!
# The ledger — rebuilding from drift

A rebuild reads the judgings and the submissions of a contest and nothing of
its statistics, so it comes to the same rows whatever the counters and the
flags have drifted to. The rows count the judgings that contribute to a key,
the flags are those of the judgings that are active and have ended, and there
is nothing left to do for a second rebuild.
-/

namespace JudgeQueue

open Transaction StatisticsDelta

namespace Judging

/-- The judging that is flagged exactly if it is active and has ended. -/
def recounted (j : Judging) : Judging :=
  { j with counted := j.active && j.isFinalized }

/-- Only what has ended needs to be flagged for a rebuild to get the flag
right. -/
theorem reflagged_eq_recounted {j : Judging} (h : j.counted = true → j.lifecycle = .finalized) :
    j.reflagged = j.recounted := by
  rw [recounted, ← counted_reflagged h]
  rfl

theorem reflagged_reflagged (j : Judging) : j.reflagged.reflagged = j.reflagged := by
  rw [reflagged, reflagged]
  congr 1
  change (j.active && (j.isFinalized || (j.active && (j.isFinalized || j.counted)))) = _
  cases j.active <;> cases j.isFinalized <;> rfl

/-- A rebuild flags all that are active and have ended. -/
theorem counted_reflagged_of_ended {j : Judging} (hactive : j.reflagged.active = true)
    (hl : j.reflagged.lifecycle = .finalized) : j.reflagged.counted = true := by
  have hactive : j.active = true := hactive
  have hended : j.isFinalized = true := isFinalized_iff.mpr hl
  rw [reflagged, hactive, hended]
  rfl

end Judging

/-! ## Contributions -/

namespace Standings

/-- Every contribution counts one judging. -/
theorem total_of_mem_contributionsOf {submissions : List Submission} {judgings : List Judging}
    {d : StatisticsDelta} (h : d ∈ contributionsOf submissions judgings) : d.total = 1 := by
  rw [contributionsOf, List.mem_filterMap] at h
  obtain ⟨j, -, hj⟩ := h
  obtain ⟨r, -, hcontribution⟩ := Option.bind_eq_some_iff.mp hj
  rw [contribution] at hcontribution
  split at hcontribution
  · cases hcontribution
  · rw [← Option.some.inj hcontribution]

/-- Contributions do not read the flags. -/
theorem contributionsOf_map {submissions : List Submission} {judgings : List Judging}
    {f : Judging → Judging} (hf : ∀ j, f j = j ∨ f j = j.reflagged) :
    contributionsOf submissions (judgings.map f) = contributionsOf submissions judgings := by
  rw [contributionsOf, contributionsOf, List.filterMap_map]
  refine List.filterMap_congr fun j _ => ?_
  rcases hf j with h | h
  · rw [Function.comp_apply, h]
  · rw [Function.comp_apply, h]
    rfl

end Standings

/-- Deltas that count one each come to one at least at a key that they have. -/
theorem StatisticsDelta.one_le_sumAt {k : StatisticsKey} {ds : List StatisticsDelta}
    (h : ∀ d ∈ ds, d.total = 1) (hk : ∃ d ∈ ds, d.statisticsKey = k) : 1 ≤ (sumAt k ds).1 := by
  have hnonneg : ∀ ds : List StatisticsDelta, (∀ d ∈ ds, d.total = 1) → 0 ≤ (sumAt k ds).1 := by
    intro ds
    induction ds with
    | nil => exact fun _ => le_rfl
    | cons d rest ih =>
      intro h
      have hd := h d List.mem_cons_self
      have hrest := ih fun e he => h e (List.mem_cons_of_mem _ he)
      rw [sumAt_cons, Prod.fst_add]
      split <;> simp [StatisticsDelta.counters] <;> omega
  obtain ⟨d, hd, rfl⟩ := hk
  induction ds with
  | nil => cases hd
  | cons e rest ih =>
    have hrest := fun e he => h e (List.mem_cons_of_mem _ he)
    rw [sumAt_cons, Prod.fst_add]
    rcases List.mem_cons.mp hd with rfl | hd
    · have hone := h d List.mem_cons_self
      have hzero := hnonneg rest hrest
      rw [if_pos rfl, StatisticsDelta.counters]
      omega
    · have hone := ih hrest hd
      have he := h e List.mem_cons_self
      split <;> simp [StatisticsDelta.counters] <;> omega

namespace Store

variable {s s' : Store} {contestId : Int} {k : StatisticsKey}

/-- Whether a judging contributes to a key: it is active and has ended, with a
verdict that counts, and its submission is one of the key that is not
ignored. -/
def contributes (s : Store) (k : StatisticsKey) (j : Judging) : Bool :=
  j.active && j.isFinalized && j.verdict.any (fun v => v ≠ .undefinedError) &&
    s.submissions.rows.any fun r => r.id = j.submissionId && !r.ignored && r.statisticsKey = k

/-- How many judgings contribute to a key. -/
def contributors (s : Store) (k : StatisticsKey) : Nat :=
  s.judgings.rows.countP (s.contributes k)

/-- How many of them were accepted. -/
def acceptors (s : Store) (k : StatisticsKey) : Nat :=
  s.judgings.rows.countP fun j => s.contributes k j && j.verdict = some .accepted

/-- A judging contributes if it is worth something while it is active and has
ended. -/
theorem worth_of_ended (j : Judging) :
    (if j.active && j.isFinalized then s.worth k j else 0) =
      if s.contributes k j then
        ((1, if decide (j.verdict = some .accepted) then 1 else 0) : Int × Int)
      else 0 := by
  have hstanding : s.standing j.submissionId = some k ↔
      (s.submissions.rows.any fun r =>
        r.id = j.submissionId && !r.ignored && r.statisticsKey = k) = true := by
    rw [standing_eq_some_iff, List.any_eq_true]
    simp only [countsAt, Bool.and_eq_true, decide_eq_true_eq, and_assoc]
    exact Iff.rfl
  rw [worth, contributes, Judging.hasCountedVerdict, Judging.isAccepted]
  simp only [hstanding]
  cases j.active with
  | false => simp
  | true =>
    cases j.isFinalized with
    | false => simp
    | true =>
      cases j.verdict with
      | none => simp
      | some v => simp [Verdict.isCounted, Verdict.isAccepted]

/-! ## The rows -/

theorem counters_rebuild_self :
    (s.rebuild k.contestId).statistics.counters k =
      ((s.contributors k : Int), (s.acceptors k : Int)) := by
  rw [counters_rebuild, if_pos rfl, Table.total_congr fun j _ => worth_of_ended j, Table.total_ite]
  rfl

/-- What a rebuild counts at the keys of the contest. -/
def counts (s : Store) (contestId : Int) : List StatisticsDelta :=
  Standings.contributionsOf (s.submissionsOf contestId)
    (s.judgings.filter fun j => s.isOf contestId j.submissionId && (j.active && j.isFinalized))

/-- **A key has a row exactly if some judging contributes to it.** -/
theorem contains_rebuild :
    (s.rebuild k.contestId).statistics.contains k = true ↔ 0 < s.contributors k := by
  have hfind : (s.rebuild k.contestId).statistics.find? k =
      ((s.counts k.contestId).foldl Table.count ∅).find? k := find?_rebuild_self
  have hcounters := counters_rebuild_self (s := s) (k := k)
  rw [Table.counters, Table.row, hfind] at hcounters
  rw [Table.contains, hfind]
  constructor
  · intro hrow
    rcases Table.contains_foldl_count.mp hrow with hempty | hdelta
    · cases hempty
    · have hones : ∀ d ∈ s.counts k.contestId, d.total = 1 :=
        fun _ hd => Standings.total_of_mem_contributionsOf hd
      have hone := one_le_sumAt hones hdelta
      have hsum : ((s.counts k.contestId).foldl Table.count ∅).counters k =
          sumAt k (s.counts k.contestId) := Table.counters_foldl_count.trans (zero_add _)
      rw [← hsum, Table.counters, Table.row, hcounters] at hone
      omega
  · intro hpos
    rw [Option.isSome_iff_ne_none]
    intro hnone
    rw [hnone] at hcounters
    have hzero : (0 : Int) = s.contributors k := congrArg Prod.fst hcounters
    omega

/-- **The row of a key** of the contest after a rebuild. -/
theorem find?_rebuild_eq :
    (s.rebuild k.contestId).statistics.find? k =
      if 0 < s.contributors k then
        some ⟨k.contestId, k.teamId, k.problemId, s.contributors k, s.acceptors k⟩
      else none := by
  have hcontains := contains_rebuild (s := s) (k := k)
  have hcounters := counters_rebuild_self (s := s) (k := k)
  rw [Table.contains] at hcontains
  rw [Table.counters, Table.row] at hcounters
  cases hrow : (s.rebuild k.contestId).statistics.find? k with
  | none =>
    rw [hrow] at hcontains
    rw [if_neg fun hpos => Bool.false_ne_true (hcontains.mpr hpos)]
  | some row =>
    rw [hrow] at hcontains hcounters
    rw [if_pos (hcontains.mp rfl)]
    have hkey : row.statisticsKey = k := Table.key_of_find? hrow
    obtain ⟨c, t, p, total, accepted⟩ := row
    obtain ⟨htotal, haccepted⟩ := Prod.mk.inj hcounters
    have htotal : total = s.contributors k := htotal
    have haccepted : accepted = s.acceptors k := haccepted
    rw [← hkey] at htotal haccepted ⊢
    rw [htotal, haccepted]
    rfl

/-- The rows of the contest are those that were computed, in order. -/
theorem filter_rebuild :
    (s.rebuild contestId).statistics.filter (fun row => row.contestId = contestId) =
      s.standings contestId := by
  have htable : (s.rebuild contestId).statistics.keep (fun row => row.contestId = contestId) =
      (s.counts contestId).foldl Table.count ∅ := by
    refine Table.ext_find? fun k => ?_
    have hcounted : ((s.counts contestId).foldl Table.count ∅).find? k =
        (s.standings contestId).find? fun row => key row = k := rfl
    rw [Table.find?_keep, hcounted]
    by_cases hk : k.contestId = contestId
    · subst hk
      rw [find?_rebuild_self]
      cases hrow : (s.standings k.contestId).find? fun row => key row = k with
      | none => rfl
      | some row =>
        have hcontest := contestId_of_mem_standings (List.mem_of_find?_eq_some hrow)
        rw [Option.filter_some, if_pos (decide_eq_true hcontest)]
    · rw [find?_rebuild_of_ne hk, find?_standings_of_ne hk, Option.filter_eq_none_iff]
      intro row hrow
      simp [contestId_of_find?_statistics hrow, hk]
  exact congrArg Table.rows htable

/-! ## A second rebuild -/

/-- A rebuild computes what it would have computed before another one. -/
theorem standings_rebuild : (s.rebuild contestId).standings contestId = s.standings contestId := by
  let flag (j : Judging) : Judging := if s.isOf contestId j.submissionId then j.reflagged else j
  have hfilter : ((s.rebuild contestId).judgings.filter fun j =>
      s.isOf contestId j.submissionId && (j.active && j.isFinalized)) =
      (s.judgings.filter fun j =>
        s.isOf contestId j.submissionId && (j.active && j.isFinalized)).map flag := by
    rw [judgings_rebuild]
    change (s.judgings.rows.map flag).filter _ = (s.judgings.rows.filter _).map flag
    rw [List.filter_map]
    congr 1
    refine List.filter_congr fun j _ => ?_
    change (s.isOf contestId (flag j).submissionId && ((flag j).active && (flag j).isFinalized)) = _
    by_cases hof : s.isOf contestId j.submissionId = true
    · rw [show flag j = j.reflagged from if_pos hof]
      rfl
    · rw [show flag j = j from if_neg hof]
  have hflag : ∀ j, flag j = j ∨ flag j = j.reflagged := by
    intro j
    by_cases hof : s.isOf contestId j.submissionId = true
    · exact .inr (if_pos hof)
    · exact .inl (if_neg hof)
  have hstandings : (s.rebuild contestId).standings contestId =
      Standings.rowsOf (s.submissionsOf contestId) ((s.rebuild contestId).judgings.filter fun j =>
        s.isOf contestId j.submissionId && (j.active && j.isFinalized)) := rfl
  rw [hstandings, hfilter, Standings.rowsOf, Standings.contributionsOf_map hflag]
  rfl

/-- A judging of the contest has the flag that a rebuild gives. -/
theorem reflagged_of_mem_rebuild {j : Judging} (hj : j ∈ (s.rebuild contestId).judgings)
    (hof : s.isOf contestId j.submissionId = true) : j.reflagged = j := by
  rw [judgings_rebuild, Table.mem_update] at hj
  obtain ⟨a, -, rfl⟩ := hj
  by_cases ha : s.isOf contestId a.submissionId = true
  · rw [if_pos ha, Judging.reflagged_reflagged]
  · rw [if_neg ha] at hof
    exact absurd hof ha

/-- **A second rebuild changes nothing.** -/
theorem rebuild_rebuild : (s.rebuild contestId).rebuild contestId = s.rebuild contestId := by
  have hstatistics : ((s.rebuild contestId).rebuild contestId).statistics =
      (s.rebuild contestId).statistics := by
    refine Table.ext_find? fun k => ?_
    by_cases hk : k.contestId = contestId
    · subst hk
      rw [find?_rebuild_self, find?_rebuild_self, standings_rebuild]
    · rw [find?_rebuild_of_ne hk]
  have hjudgings : ((s.rebuild contestId).rebuild contestId).judgings =
      (s.rebuild contestId).judgings := by
    rw [judgings_rebuild]
    exact Table.update_eq_self fun j hj hof => reflagged_of_mem_rebuild hj hof
  have hframe : (s.rebuild contestId).rebuild contestId =
      { s.rebuild contestId with
        statistics := ((s.rebuild contestId).rebuild contestId).statistics
        judgings := ((s.rebuild contestId).rebuild contestId).judgings } := rfl
  rw [hframe, hstatistics, hjudgings]

/-! ## What a rebuild repairs -/

/-- A store has become another in which the rows and the flags of a contest
are what its judgings make them, and nothing else has changed. -/
structure Repairs (s : Store) (contestId : Int) (s' : Store) : Prop where
  rows : ∀ k : StatisticsKey, k.contestId = contestId → s'.statistics.find? k =
    if 0 < s.contributors k then
      some ⟨k.contestId, k.teamId, k.problemId, s.contributors k, s.acceptors k⟩
    else none
  otherRows : ∀ k : StatisticsKey, k.contestId ≠ contestId →
    s'.statistics.find? k = s.statistics.find? k
  judgings : s'.judgings.rows = s.judgings.rows.map fun j =>
    if s.isOf contestId j.submissionId then j.recounted else j
  frame : s' = { s with statistics := s'.statistics, judgings := s'.judgings }

/-- **A rebuild repairs the contest**, if only judgings that have ended are
flagged. -/
theorem repairs_rebuild (h : ∀ j ∈ s.judgings, j.counted = true → j.lifecycle = .finalized)
    (contestId : Int) : s.Repairs contestId (s.rebuild contestId) where
  rows k hk := hk ▸ find?_rebuild_eq
  otherRows k hk := find?_rebuild_of_ne hk
  judgings := by
    refine List.map_congr_left fun j hj => ?_
    rw [Judging.reflagged_eq_recounted (h j hj)]
  frame := rfl

end Store

/-! ## Counting after a rebuild -/

namespace Standings

variable {w : World}

/-- **Counting changes nothing** where no judging waits for it. -/
theorem run_judgingFinished_of_counted {id : Int}
    (h : ∀ j ∈ w.store.judgings, j.id = id → j.active = true → j.lifecycle = .finalized →
      j.counted = true) : (judgingFinished id).run w = (.ok (.commit none []), w) := by
  have hwaits : ∀ j ∈ w.store.judgings, (decide (j.counted ≠ true) &&
      JudgingFilter.admits
        { JudgingFilter.ofIds [id] with active := some true, lifecycle := some .finalized } j) =
      false := by
    intro j hj
    rw [Bool.eq_false_iff, Ne, Bool.and_eq_true, decide_eq_true_eq]
    rintro ⟨hcounted, hadmitted⟩
    have hmeant : j.id = id ∧ j.lifecycle = .finalized ∧ j.active = true := by
      simpa [JudgingFilter.admits, JudgingFilter.ofIds, and_assoc] using hadmitted
    exact hcounted (h j hj hmeant.1 hmeant.2.2 hmeant.2.1)
  have hset : w.store.setJudgingsCounted
      { JudgingFilter.ofIds [id] with active := some true, lifecycle := some .finalized } true =
      ([], w.store) := by
    have hnone : (w.store.judgings.filter fun j => decide (j.counted ≠ true) &&
        JudgingFilter.admits
          { JudgingFilter.ofIds [id] with active := some true, lifecycle := some .finalized } j) =
        [] := List.filter_eq_nil_iff.mpr fun j hj hp => Bool.false_ne_true (hwaits j hj ▸ hp)
    rw [Store.setJudgingsCounted, hnone,
      Table.update_eq_self fun j hj hp => absurd hp (Bool.eq_false_iff.mp (hwaits j hj))]
    rfl
  have hask := run_ask (w := w) (q := .setJudgingsCounted
    { JudgingFilter.ofIds [id] with active := some true, lifecycle := some .finalized } true)
    (congrArg Except.ok hset)
  have hcount : (count (.ofIds [id])).run w = (.ok [], w) := by
    unfold count
    rw [run_bind hask]
    rfl
  unfold judgingFinished
  rw [run_bind hcount, run_bind (run_ask rfl)]
  rfl

end Standings

end JudgeQueue
