import JudgeQueue.Proofs.Ledger.Merge
import JudgeQueue.Store.Query
/-!
# The ledger — merging is faithful

What deltas merge to is told by what they come to at each key, and by nothing
else: two lists of deltas merge to the same one exactly if they come to the same
at every key. So neither their order nor merging them before shows, and deltas
that are taken back leave nothing. The statistics do not tell merged deltas from
the deltas that they were merged from, except that a key whose deltas cancel out
gets no row.
-/

namespace JudgeQueue

namespace StatisticsDelta

variable {k : StatisticsKey} {ds es : List StatisticsDelta}

/-! ## The merged deltas -/

/-- Merged deltas are in order of their keys, one a key. -/
theorem pairwise_mergeAll (ds : List StatisticsDelta) :
    (mergeAll ds).Pairwise fun d e => compare d.statisticsKey e.statisticsKey = .lt :=
  (merged ds).ascending

theorem isNoop_of_mem_mergeAll {d : StatisticsDelta} (h : d ∈ mergeAll ds) : d.isNoop = false := by
  have hkept := (List.mem_filter.mp h).2
  rwa [Bool.not_eq_true'] at hkept

/-- **What deltas come to** at each key is all that shows in what they merge to. -/
theorem mergeAll_eq_iff : mergeAll ds = mergeAll es ↔ ∀ k, sumAt k ds = sumAt k es := by
  constructor
  · intro h k
    rw [← sumAt_mergeAll, h, sumAt_mergeAll]
  · intro h
    have htable : merged ds = merged es := Table.ext_find? fun k => by
      rw [find?_merged, find?_merged, h k]
    exact congrArg Table.rows htable

theorem sumAt_perm (h : ds.Perm es) : sumAt k ds = sumAt k es :=
  (h.map _).sum_eq

/-- **The order of deltas** does not show, -/
theorem mergeAll_perm (h : ds.Perm es) : mergeAll ds = mergeAll es :=
  mergeAll_eq_iff.mpr fun _ => sumAt_perm h

/-- merging them once more changes nothing, -/
theorem mergeAll_mergeAll (ds : List StatisticsDelta) : mergeAll (mergeAll ds) = mergeAll ds :=
  mergeAll_eq_iff.mpr fun _ => sumAt_mergeAll

/-- and deltas that are taken back merge to none. -/
theorem mergeAll_append_negated (ds : List StatisticsDelta) :
    mergeAll (ds ++ ds.map negated) = [] := by
  have hnil : mergeAll (ds ++ ds.map negated) = mergeAll [] :=
    mergeAll_eq_iff.mpr fun k => by rw [sumAt_append, sumAt_negated, add_neg_cancel, sumAt_nil]
  exact hnil

end StatisticsDelta

open StatisticsDelta

/-! ## The statistics -/

namespace Table

variable {rows rows' : Table StatisticsRow} {k : StatisticsKey} {ds : List StatisticsDelta}

/-- A key has the same row in two tables, read as zero where there is none, if it
has the same counters. -/
theorem row_congr (h : rows.counters k = rows'.counters k) : rows.row k = rows'.row k :=
  eq_of_counters (statisticsKey_row.trans statisticsKey_row.symm) h

/-- Deltas leave the rows of other keys alone. -/
theorem find?_foldl_count_of_ne (h : ∀ d ∈ ds, d.statisticsKey ≠ k) :
    (ds.foldl count rows).find? k = rows.find? k := by
  induction ds generalizing rows with
  | nil => rfl
  | cons d rest ih =>
    obtain ⟨hd, hrest⟩ := List.forall_mem_cons.mp h
    have hkey : key ((rows.row d.statisticsKey).add d) = d.statisticsKey := statisticsKey_row
    rw [List.foldl_cons, ih hrest, count_eq_insert, find?_insert, hkey, if_neg hd]

end Table

/-- **Merging deltas is faithful.** They merge to deltas in order of their keys, one
for each key and none that changes nothing, which come to the same at every key;
their order does not show, nor whether they were merged before, and deltas that
are taken back merge to none. In the statistics of any store merged deltas lead to
the same rows, a missing row read as zero, as the deltas themselves, and neither
touches or makes a row of a key that has no delta. -/
theorem mergeStatistics_mergeAll (ds : List StatisticsDelta) :
    (mergeAll ds).Pairwise (fun d e => compare d.statisticsKey e.statisticsKey = .lt) ∧
    (∀ d ∈ mergeAll ds, d.isNoop = false) ∧
    (∀ k, sumAt k (mergeAll ds) = sumAt k ds) ∧
    (∀ es : List StatisticsDelta, es.Perm ds → mergeAll es = mergeAll ds) ∧
    mergeAll (mergeAll ds) = mergeAll ds ∧
    mergeAll (ds ++ ds.map negated) = [] ∧
    ∀ s : Store,
      (∀ k, (s.mergeStatistics (mergeAll ds)).statistics.row k =
          (s.mergeStatistics ds).statistics.row k ∧
        (s.mergeStatistics ds).statistics.counters k = s.statistics.counters k + sumAt k ds) ∧
      (∀ k, (∀ d ∈ ds, d.statisticsKey ≠ k) →
        (s.mergeStatistics (mergeAll ds)).statistics.find? k = s.statistics.find? k ∧
        (s.mergeStatistics ds).statistics.find? k = s.statistics.find? k) ∧
      { s.mergeStatistics (mergeAll ds) with statistics := s.statistics } = s ∧
      { s.mergeStatistics ds with statistics := s.statistics } = s := by
  refine ⟨pairwise_mergeAll ds, fun _ => isNoop_of_mem_mergeAll, fun _ => sumAt_mergeAll,
    fun _ => mergeAll_perm, mergeAll_mergeAll ds, mergeAll_append_negated ds, fun s => ?_⟩
  refine ⟨fun k => ⟨?same, Table.counters_foldl_count⟩, fun k hk => ⟨?merged, ?plain⟩, rfl, rfl⟩
  case same =>
    refine Table.row_congr ?_
    rw [Store.mergeStatistics, Store.mergeStatistics, Table.counters_foldl_count,
      Table.counters_foldl_count, sumAt_mergeAll]
  case merged =>
    refine Table.find?_foldl_count_of_ne fun d hd hkey => ?_
    have hsum := exists_mem_mergeAll_iff.mp ⟨d, hd, hkey⟩
    exact hsum (sumAt_eq_zero hk)
  case plain => exact Table.find?_foldl_count_of_ne hk

/-- Four deltas: those of one team add up, those of another cancel out. -/
def crossedDeltas : List StatisticsDelta :=
  [⟨⟨1, 1, 1⟩, 1, 0⟩, ⟨⟨1, 2, 1⟩, 1, 1⟩, ⟨⟨1, 1, 1⟩, 0, 1⟩, ⟨⟨1, 2, 1⟩, -1, -1⟩]

/-- Two rows of the statistics, one of a team that has no delta. -/
def crossedStore : Store :=
  { statistics := .ofList [⟨1, 1, 1, 4, 2⟩, ⟨1, 3, 1, 7, 5⟩] }

/-- The four deltas merge to one, in reverse too. It leads to the row that they lead
to themselves, and the row of the third team stays. -/
theorem mergeStatistics_mergeAll_crossedDeltas :
    mergeAll crossedDeltas = [⟨⟨1, 1, 1⟩, 1, 1⟩] ∧
    (⟨⟨1, 1, 1⟩, 1, 1⟩ ∈ mergeAll crossedDeltas ∧
      isNoop ⟨⟨1, 1, 1⟩, 1, 1⟩ = false) ∧
    (crossedDeltas.reverse.Perm crossedDeltas ∧
      mergeAll crossedDeltas.reverse = mergeAll crossedDeltas) ∧
    (crossedStore.mergeStatistics (mergeAll crossedDeltas)).statistics.row ⟨1, 1, 1⟩ =
      (crossedStore.mergeStatistics crossedDeltas).statistics.row ⟨1, 1, 1⟩ ∧
    (crossedStore.mergeStatistics crossedDeltas).statistics.counters ⟨1, 1, 1⟩ = (5, 3) ∧
    (∀ d ∈ crossedDeltas, d.statisticsKey ≠ ⟨1, 3, 1⟩) ∧
    (crossedStore.mergeStatistics (mergeAll crossedDeltas)).statistics.find? ⟨1, 3, 1⟩ =
      some ⟨1, 3, 1, 7, 5⟩ := by
  obtain ⟨-, hnoop, -, hperm, -, -, hstore⟩ := mergeStatistics_mergeAll crossedDeltas
  obtain ⟨hrow, hother, -⟩ := hstore crossedStore
  have hmerged : mergeAll crossedDeltas = [⟨⟨1, 1, 1⟩, 1, 1⟩] := by decide
  have hmem : ⟨⟨1, 1, 1⟩, 1, 1⟩ ∈ mergeAll crossedDeltas := by
    rw [hmerged]
    exact List.mem_cons_self
  have hreverse : crossedDeltas.reverse.Perm crossedDeltas := List.reverse_perm _
  have hnone : ∀ d ∈ crossedDeltas, d.statisticsKey ≠ ⟨1, 3, 1⟩ := by decide
  exact ⟨hmerged, ⟨hmem, hnoop _ hmem⟩, ⟨hreverse, hperm _ hreverse⟩, (hrow _).1, (hrow _).2, hnone,
    (hother _ hnone).1⟩

end JudgeQueue
