import JudgeQueue.Proofs.Ledger.Counters
/-!
# The ledger — merged deltas

Deltas that are merged first lead to the same counters, but a key whose deltas
cancel out gets no row. Deltas that all take something back do not cancel out,
so merging them leaves no trace at all in the table.
-/

namespace JudgeQueue

open StatisticsDelta

namespace StatisticsDelta

variable {k : StatisticsKey} {ds : List StatisticsDelta}

/-- The merged deltas as a table. -/
def merged (ds : List StatisticsDelta) : Table StatisticsDelta :=
  (ds.foldl (fun merged d => merged.alter ⟨d.statisticsKey, 0, 0⟩ (·.add d))
    (∅ : Table StatisticsDelta)).keep fun d => !d.isNoop

theorem rows_merged : (merged ds).rows = mergeAll ds := rfl

/-- A merged delta changes something. -/
theorem counters_ne_zero_of_mem_merged {d : StatisticsDelta} (h : d ∈ merged ds) :
    d.counters ≠ 0 := by
  intro hzero
  obtain ⟨htotal, haccepted⟩ := Prod.mk.inj hzero
  have hnoop := (Table.mem_keep.mp h).2
  simp [isNoop, htotal, haccepted] at hnoop

/-- **The merged delta of a key** is what its deltas come to, unless they cancel
out. -/
theorem find?_merged :
    (merged ds).find? k =
      if sumAt k ds = 0 then none else some ⟨k, (sumAt k ds).1, (sumAt k ds).2⟩ := by
  have hsum : sumAt k ds = (((merged ds).find? k).map counters).getD 0 := by
    rw [← sumAt_mergeAll, ← rows_merged, sumAt_rows]
  cases hfind : (merged ds).find? k with
  | none =>
    have hzero : sumAt k ds = 0 := by rw [hsum, hfind]; rfl
    rw [if_pos hzero]
  | some d =>
    have hd : sumAt k ds = d.counters := by rw [hsum, hfind]; rfl
    have hne := counters_ne_zero_of_mem_merged (Table.mem_of_find? hfind)
    obtain rfl : d.statisticsKey = k := Table.key_of_find? hfind
    rw [hd, if_neg hne]
    rfl

/-- **A key has a merged delta** exactly if its deltas do not cancel out. -/
theorem exists_mem_mergeAll_iff :
    (∃ d ∈ mergeAll ds, d.statisticsKey = k) ↔ sumAt k ds ≠ 0 := by
  have hcontains : (∃ d ∈ mergeAll ds, d.statisticsKey = k) ↔ (merged ds).contains k = true :=
    (Table.contains_iff (t := merged ds) (k := k)).symm
  rw [hcontains, Table.contains, find?_merged]
  split <;> simp [*]

/-- Deltas of other keys come to nothing. -/
theorem sumAt_eq_zero (h : ∀ d ∈ ds, d.statisticsKey ≠ k) : sumAt k ds = 0 := by
  induction ds with
  | nil => rfl
  | cons d rest ih =>
    rw [sumAt_cons, if_neg (h d List.mem_cons_self), zero_add]
    exact ih fun e he => h e (List.mem_cons_of_mem _ he)

/-- Deltas that take something back add nothing to a total. -/
theorem sumAt_nonpos (h : ∀ d ∈ ds, d.total < 0) : (sumAt k ds).1 ≤ 0 := by
  induction ds with
  | nil => exact Int.le_refl 0
  | cons d rest ih =>
    have hd := h d List.mem_cons_self
    have hrest := ih fun e he => h e (List.mem_cons_of_mem _ he)
    rw [sumAt_cons]
    split
    · change d.total + (sumAt k rest).1 ≤ 0
      omega
    · rwa [zero_add]

/-- They do take something back from a key of theirs. -/
theorem sumAt_lt_zero (h : ∀ d ∈ ds, d.total < 0) {d : StatisticsDelta} (hd : d ∈ ds)
    (hk : d.statisticsKey = k) : (sumAt k ds).1 < 0 := by
  obtain ⟨before, after, rfl⟩ := List.append_of_mem hd
  have hone := h d hd
  have hbefore : (sumAt k before).1 ≤ 0 :=
    sumAt_nonpos fun e he => h e (List.mem_append_left _ he)
  have hafter : (sumAt k after).1 ≤ 0 :=
    sumAt_nonpos fun e he => h e (List.mem_append_right _ (List.mem_cons_of_mem _ he))
  rw [sumAt_append, sumAt_cons, if_pos hk]
  change (sumAt k before).1 + (d.total + (sumAt k after).1) < 0
  omega

/-- **Deltas that take something back** do not cancel out. -/
theorem exists_mem_iff_of_neg (h : ∀ d ∈ ds, d.total < 0) :
    (∃ d ∈ ds, d.statisticsKey = k) ↔ sumAt k ds ≠ 0 := by
  constructor
  · rintro ⟨d, hd, hk⟩ hzero
    have hlt := sumAt_lt_zero h hd hk
    rw [hzero] at hlt
    exact absurd hlt (lt_irrefl 0)
  · intro hne
    by_contra hnone
    exact hne (sumAt_eq_zero fun d hd hk => hnone ⟨d, hd, hk⟩)

end StatisticsDelta

namespace Table

variable {rows rows' : Table StatisticsRow} {k : StatisticsKey} {ds : List StatisticsDelta}

/-- Two rows of one key with the same counters are the same. -/
theorem eq_of_counters {r r' : StatisticsRow} (hkey : r.statisticsKey = r'.statisticsKey)
    (hcounters : r.counters = r'.counters) : r = r' := by
  obtain ⟨c, t, p, total, accepted⟩ := r
  obtain ⟨c', t', p', total', accepted'⟩ := r'
  obtain ⟨rfl, rfl, rfl⟩ := StatisticsKey.mk.inj hkey
  obtain ⟨rfl, rfl⟩ := Prod.mk.inj hcounters
  rfl

/-- Two tables of counters are the same if they have rows for the same keys,
with the same counters. -/
theorem ext_counters (hkeys : ∀ k, rows.contains k = rows'.contains k)
    (hcounters : ∀ k, rows.counters k = rows'.counters k) : rows = rows' := by
  refine ext_find? fun k => ?_
  have hkey := hkeys k
  have hrow : (rows.row k).counters = (rows'.row k).counters := hcounters k
  rw [contains, contains] at hkey
  rw [row, row] at hrow
  cases hfind : rows.find? k <;> cases hfind' : rows'.find? k <;> rw [hfind, hfind'] at hkey hrow
  case none.some | some.none => cases hkey
  case some.some r r' =>
    have hkeys : r.statisticsKey = r'.statisticsKey :=
      (key_of_find? hfind).trans (key_of_find? hfind').symm
    exact congrArg some (eq_of_counters hkeys hrow)

/-- Deltas add rows for their keys. -/
theorem contains_foldl_count :
    (ds.foldl count rows).contains k = true ↔
      rows.contains k = true ∨ ∃ d ∈ ds, d.statisticsKey = k := by
  induction ds generalizing rows with
  | nil => simp
  | cons d rest ih =>
    have hcount : (rows.count d).contains k = true ↔
        rows.contains k = true ∨ d.statisticsKey = k := by
      have hkey : key ((rows.row d.statisticsKey).add d) = d.statisticsKey := statisticsKey_row
      rw [contains, count_eq_insert, find?_insert, hkey]
      split
      · next hk => simp [hk]
      · next hk => simp [hk, contains]
    rw [List.foldl_cons, ih, hcount, or_assoc]
    simp

/-- **Merging deltas that take something back** does not show. -/
theorem foldl_count_mergeAll (h : ∀ d ∈ ds, d.total < 0) :
    (mergeAll ds).foldl count rows = ds.foldl count rows := by
  refine ext_counters (fun k => ?_) fun k => ?_
  · rw [Bool.eq_iff_iff, contains_foldl_count, contains_foldl_count, exists_mem_mergeAll_iff,
      exists_mem_iff_of_neg h]
  · rw [counters_foldl_count, counters_foldl_count, sumAt_mergeAll]

end Table

end JudgeQueue
