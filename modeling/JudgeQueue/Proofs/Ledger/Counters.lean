import JudgeQueue.Proofs.Table.Lookup
import JudgeQueue.Statistics
import Mathlib.Algebra.BigOperators.Group.List.Basic
import Mathlib.Algebra.Group.Prod
import Mathlib.Tactic.Abel
/-!
# The ledger — counters and deltas

The two counters of a key are read as one pair, and a key without a row as
zero. Deltas are then a list that is summed up at each key, and the order or
the merging of deltas does not show in the counters they lead to.
-/

namespace JudgeQueue

/-- The counters of a row, as a pair. -/
def StatisticsRow.counters (r : StatisticsRow) : Int × Int :=
  (r.totalSubmission, r.acceptedSubmission)

/-- The numbers of a delta, as a pair. -/
def StatisticsDelta.counters (d : StatisticsDelta) : Int × Int :=
  (d.total, d.accepted)

/-- The row of a key, which is zero until there is one. -/
def Table.row (rows : Table StatisticsRow) (k : StatisticsKey) : StatisticsRow :=
  (rows.find? k).getD (.zero k)

/-- The counters of a key, which are zero while it has no row. -/
def Table.counters (rows : Table StatisticsRow) (k : StatisticsKey) : Int × Int :=
  (rows.row k).counters

namespace StatisticsDelta

variable {k : StatisticsKey} {ds es : List StatisticsDelta} {d : StatisticsDelta}

/-- What some deltas come to at a key. -/
def sumAt (k : StatisticsKey) (ds : List StatisticsDelta) : Int × Int :=
  (ds.map fun d => if d.statisticsKey = k then d.counters else 0).sum

@[simp] theorem sumAt_nil : sumAt k [] = 0 := rfl

@[simp] theorem sumAt_cons :
    sumAt k (d :: ds) = (if d.statisticsKey = k then d.counters else 0) + sumAt k ds := by
  simp [sumAt]

@[simp] theorem sumAt_append : sumAt k (ds ++ es) = sumAt k ds + sumAt k es := by
  simp [sumAt]

/-- Deltas that are taken back come to the opposite. -/
theorem sumAt_negated : sumAt k (ds.map negated) = -sumAt k ds := by
  induction ds with
  | nil => rfl
  | cons d rest ih =>
    have hd : d.negated.counters = -d.counters := rfl
    rw [List.map_cons, sumAt_cons, sumAt_cons, ih, neg_add]
    change (if d.statisticsKey = k then d.negated.counters else 0) + _ = _
    rw [hd]
    split <;> simp

/-- Deltas that change nothing may be left out. -/
theorem sumAt_filter_isNoop : sumAt k (ds.filter fun d => !d.isNoop) = sumAt k ds := by
  induction ds with
  | nil => rfl
  | cons d rest ih =>
    rw [List.filter_cons, sumAt_cons]
    cases hd : d.isNoop with
    | false => rw [Bool.not_false, if_pos rfl, sumAt_cons, ih]
    | true =>
      have hzero : d.counters = 0 := by
        simp only [isNoop, Bool.and_eq_true, decide_eq_true_eq] at hd
        exact Prod.ext hd.1 hd.2
      rw [Bool.not_true, if_neg Bool.false_ne_true, ih, hzero]
      simp

/-- In a table of deltas a key has one of them. -/
theorem sumAt_rows (t : Table StatisticsDelta) :
    sumAt k t.rows = ((t.find? k).map counters).getD 0 := by
  have hrows : ∀ rows : List StatisticsDelta, (rows.map statisticsKey).Nodup →
      sumAt k rows = ((rows.find? fun d => d.statisticsKey = k).map counters).getD 0 := by
    intro rows
    induction rows with
    | nil => exact fun _ => rfl
    | cons d rest ih =>
      intro h
      obtain ⟨hd, hrest⟩ := List.nodup_cons.mp h
      rw [sumAt_cons, ih hrest, List.find?_cons]
      by_cases hk : d.statisticsKey = k
      · have hnone : rest.find? (fun e => e.statisticsKey = k) = none := by
          rw [List.find?_eq_none]
          intro e he
          have hne : e.statisticsKey ≠ k := fun hek =>
            hd (hk.trans hek.symm ▸ List.mem_map_of_mem he)
          simpa using hne
        simp [hk, hnone]
      · simp [hk]
  exact hrows t.rows t.nodup_keys

/-- **Merging keeps the sums.** -/
theorem sumAt_mergeAll : sumAt k (mergeAll ds) = sumAt k ds := by
  have hfold : ∀ (ds : List StatisticsDelta) (t : Table StatisticsDelta),
      sumAt k (ds.foldl (fun merged d => merged.alter ⟨d.statisticsKey, 0, 0⟩ (·.add d)) t).rows =
        sumAt k t.rows + sumAt k ds := by
    intro ds
    induction ds with
    | nil => intro t; simp
    | cons d rest ih =>
      intro t
      rw [List.foldl_cons, ih, sumAt_cons, ← add_assoc]
      congr 1
      rw [sumAt_rows, sumAt_rows, Table.alter, Table.find?_insert]
      -- the row that is altered has the key of the delta, found or fresh
      have hrow : ((t.find? d.statisticsKey).getD ⟨d.statisticsKey, 0, 0⟩).statisticsKey =
          d.statisticsKey := by
        cases hfind : t.find? d.statisticsKey with
        | none => rfl
        | some e => exact Table.key_of_find? hfind
      change (Option.map counters (if ((t.find? d.statisticsKey).getD
        ⟨d.statisticsKey, 0, 0⟩).statisticsKey = k then _ else _)).getD 0 = _
      rw [hrow]
      by_cases hk : d.statisticsKey = k
      · subst hk
        rw [if_pos rfl, if_pos rfl]
        cases t.find? d.statisticsKey <;> simp [add, counters]
      · rw [if_neg hk, if_neg hk, add_zero]
  rw [mergeAll, Table.filter, sumAt_filter_isNoop, hfold]
  exact zero_add _

end StatisticsDelta

open StatisticsDelta

namespace Table

variable {rows : Table StatisticsRow} {k : StatisticsKey} {ds : List StatisticsDelta}

@[simp] theorem counters_empty : (∅ : Table StatisticsRow).counters k = 0 := rfl

theorem statisticsKey_row : (rows.row k).statisticsKey = k := by
  rw [row]
  cases h : rows.find? k with
  | none => rfl
  | some r => exact key_of_find? h

theorem count_eq_insert {d : StatisticsDelta} :
    rows.count d = rows.insert ((rows.row d.statisticsKey).add d) := rfl

/-- A delta adds its numbers at its key. -/
theorem counters_count {d : StatisticsDelta} :
    (rows.count d).counters k =
      rows.counters k + if d.statisticsKey = k then d.counters else 0 := by
  have hrow : key ((rows.row d.statisticsKey).add d) = d.statisticsKey := statisticsKey_row
  rw [counters, row, count_eq_insert, find?_insert, hrow]
  by_cases hk : d.statisticsKey = k
  · subst hk
    rw [if_pos rfl, if_pos rfl]
    rfl
  · rw [if_neg hk, if_neg hk, add_zero]
    rfl

/-- **Deltas add up**, one after another. -/
theorem counters_foldl_count :
    (ds.foldl count rows).counters k = rows.counters k + sumAt k ds := by
  induction ds generalizing rows with
  | nil => simp
  | cons d rest ih => rw [List.foldl_cons, ih, counters_count, sumAt_cons, add_assoc]

/-- A row comes from a delta of its key, or was there before. -/
theorem mem_foldl_count {r : StatisticsRow} (h : r ∈ ds.foldl count rows) :
    r ∈ rows ∨ ∃ d ∈ ds, r.statisticsKey = d.statisticsKey := by
  induction ds generalizing rows with
  | nil => exact .inl h
  | cons d rest ih =>
    rcases ih h with h | ⟨e, he, hk⟩
    · rcases mem_insert.mp h with rfl | ⟨h, -⟩
      · exact .inr ⟨d, List.mem_cons_self, statisticsKey_row⟩
      · exact .inl h
    · exact .inr ⟨e, List.mem_cons_of_mem _ he, hk⟩

end Table

end JudgeQueue
