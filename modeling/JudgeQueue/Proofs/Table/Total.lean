import JudgeQueue.Proofs.Table.Lookup
import Mathlib.Algebra.BigOperators.Group.List.Basic
import Mathlib.Data.List.Nodup
/-!
# Tables — totals and counts

What the rows of a table come to under a weight. Each operation changes the
total by what it adds, changes or drops, so an account that is kept as a
total is followed operation by operation. Rows of one table that point at
different rows of another are counted there.
-/

namespace JudgeQueue

namespace Table

variable {α κ : Type} [Keyed α κ] [Ord κ]
variable {M : Type} [AddCommMonoid M]
variable {t : Table α} {f g : α → M}

/-- The sum of the weights of all rows. -/
def total (t : Table α) (f : α → M) : M :=
  (t.rows.map f).sum

/-- The total reads the weight at the rows of the table only. -/
theorem total_congr (h : ∀ a ∈ t, f a = g a) : t.total f = t.total g := by
  rw [total, total, List.map_congr_left h]

theorem total_add : t.total (fun a => f a + g a) = t.total f + t.total g :=
  List.sum_map_add

theorem total_update {p : α → Bool} {c : α → α} {hc : ∀ a, key (c a) = key a} :
    (t.update p c hc).total f = t.total fun a => f (if p a then c a else a) := by
  change ((t.rows.map _).map f).sum = _
  rw [List.map_map]
  rfl

/-- **A change without weight** leaves the total. -/
theorem total_update_of_eq {p : α → Bool} {c : α → α} {hc : ∀ a, key (c a) = key a}
    (h : ∀ a ∈ t, p a = true → f (c a) = f a) : (t.update p c hc).total f = t.total f := by
  rw [total_update]
  refine total_congr fun a ha => ?_
  by_cases hp : p a = true
  · rw [if_pos hp, h a ha hp]
  · rw [if_neg hp]

/-- The weights of some rows, summed up within the table. -/
theorem sum_filter {p : α → Bool} :
    ((t.filter p).map f).sum = t.total fun a => if p a then f a else 0 := by
  have hrows : ∀ rows : List α,
      ((rows.filter p).map f).sum = (rows.map fun a => if p a then f a else 0).sum := by
    intro rows
    induction rows with
    | nil => rfl
    | cons a rest ih =>
      rw [List.filter_cons, List.map_cons, List.sum_cons, ← ih]
      by_cases hp : p a = true
      · rw [if_pos hp, if_pos hp, List.map_cons, List.sum_cons]
      · rw [if_neg hp, if_neg hp, zero_add]
  exact hrows t.rows

/-- Dropping rows without weight leaves the total. -/
theorem total_keep_of_eq {p : α → Bool} (h : ∀ a ∈ t, p a = false → f a = 0) :
    (t.keep p).total f = t.total f := by
  change ((t.filter p).map f).sum = _
  rw [sum_filter]
  refine total_congr fun a ha => ?_
  by_cases hp : p a = true
  · rw [if_pos hp]
  · rw [if_neg hp, h a ha (by simpa using hp)]

/-- **A row with a key of its own** adds its weight. -/
theorem total_insert [Std.TransOrd κ] [Std.LawfulEqOrd κ] {r : α} (h : ∀ a ∈ t, key a ≠ key r) :
    (t.insert r).total f = f r + t.total f := by
  rw [total, ((insert_perm h).map f).sum_eq, List.map_cons, List.sum_cons, total]

/-! ## Counts -/

/-- **Rows that point at different rows of another table** are as many as the
rows that they point at. -/
theorem countP_eq_of_points {β : Type} [Keyed β κ] [Std.LawfulEqOrd κ] {u : Table β}
    {p : α → Bool} {q : β → Bool} (points : α → κ)
    (hinj : ∀ a ∈ t, ∀ b ∈ t, p a = true → p b = true → points a = points b → a = b)
    (hmatch : ∀ k, (∃ a ∈ t, p a = true ∧ points a = k) ↔ ∃ b ∈ u, q b = true ∧ key b = k) :
    t.rows.countP p = u.rows.countP q := by
  have hpoints : ((t.filter p).map points).Nodup := by
    have hrows : t.rows.Nodup := .of_map key t.nodup_keys
    refine List.Nodup.map_on (fun a ha b hb heq => ?_) (hrows.filter _)
    obtain ⟨hat, hpa⟩ := mem_filter.mp ha
    obtain ⟨hbt, hpb⟩ := mem_filter.mp hb
    exact hinj a hat b hbt hpa hpb heq
  have hkeys : ((u.filter q).map key).Nodup := u.nodup_keys.sublist (List.filter_sublist.map _)
  have hperm : ((t.filter p).map points).Perm ((u.filter q).map key) := by
    refine (List.perm_ext_iff_of_nodup hpoints hkeys).mpr fun k => ?_
    simp only [List.mem_map, mem_filter, and_assoc]
    exact hmatch k
  have hlength := hperm.length_eq
  rw [List.length_map, List.length_map] at hlength
  rw [List.countP_eq_length_filter, List.countP_eq_length_filter]
  exact hlength

end Table

end JudgeQueue
