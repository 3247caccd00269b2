import JudgeQueue.Proofs.Table.Lookup
/-!
# Tables — ids from a sequence

The rows of a table that are numbered by a sequence carry ids which were drawn
from it. As the table changes the sequence never goes back, so an id that was
drawn before belongs to the row that had it, or to none any more. How that row
may have changed is a relation of its own.
-/

namespace JudgeQueue

/-- A relation between a row and what may become of it, step by step, under
the same key. -/
class Lineage {α : Type} [Keyed α Int] (R : α → α → Prop) : Prop where
  refl : ∀ a, R a a
  trans : ∀ {a b c}, R a b → R b c → R a c
  key_eq : ∀ {a b}, R a b → key a = key b

/-- Rows that never change. -/
instance {α : Type} [Keyed α Int] : Lineage (@Eq α) where
  refl _ := rfl
  trans := Eq.trans
  key_eq := congrArg key

namespace Table

variable {α : Type} [Keyed α Int] {R : α → α → Prop} [Lineage R]
variable {t t₁ t' : Table α} {n n₁ n' : Int}

/-- A table has become another, and the last id drawn for it has become
another. Rows under ids that were drawn before come from rows of the table
before. -/
structure Grows (R : α → α → Prop) (t : Table α) (n : Int) (t' : Table α) (n' : Int) : Prop where
  le : n ≤ n'
  old : ∀ b ∈ t', key b ≤ n → ∃ a ∈ t, R a b
  drawn : (∀ a ∈ t, key a ≤ n) → ∀ b ∈ t', key b ≤ n'

/-! ## One change after another -/

theorem Grows.refl (t : Table α) (n : Int) : t.Grows R n t n :=
  ⟨Int.le_refl n, fun b hb _ => ⟨b, hb, Lineage.refl b⟩, id⟩

theorem Grows.trans (h : t.Grows R n t₁ n₁) (h' : t₁.Grows R n₁ t' n') :
    t.Grows R n t' n' where
  le := Int.le_trans h.le h'.le
  old c hc hle := by
    obtain ⟨b, hb, hbc⟩ := h'.old c hc (Int.le_trans hle h.le)
    have hble : key b ≤ n := by
      rw [Lineage.key_eq hbc]
      exact hle
    obtain ⟨a, ha, hab⟩ := h.old b hb hble
    exact ⟨a, ha, Lineage.trans hab hbc⟩
  drawn hdrawn := h'.drawn (h.drawn hdrawn)

/-! ## The changes of tables -/

/-- A row under the next id. -/
theorem grows_insert {r : α} (hr : key r = n + 1) : t.Grows R n (t.insert r) (n + 1) where
  le := by omega
  old b hb hle := by
    rcases mem_insert.mp hb with rfl | ⟨hb, -⟩
    · omega
    · exact ⟨b, hb, Lineage.refl b⟩
  drawn hdrawn b hb := by
    rcases mem_insert.mp hb with rfl | ⟨hb, -⟩
    · exact Int.le_of_eq hr
    · have hle := hdrawn b hb
      omega

theorem grows_update {p : α → Bool} {f : α → α} (hf : ∀ a, key (f a) = key a)
    (h : ∀ a ∈ t, p a = true → R a (f a)) : t.Grows R n (t.update p f hf) n where
  le := Int.le_refl n
  old b hb _ := by
    obtain ⟨a, ha, rfl⟩ := mem_update.mp hb
    refine ⟨a, ha, ?_⟩
    split
    · next hp => exact h a ha hp
    · exact Lineage.refl a
  drawn hdrawn b hb := by
    obtain ⟨a, ha, rfl⟩ := mem_update.mp hb
    have hkey : key (if p a = true then f a else a) = key a := by
      split
      · exact hf a
      · rfl
    rw [hkey]
    exact hdrawn a ha

theorem grows_modify {k : Int} {f : α → α} (hf : ∀ a, key (f a) = key a)
    (h : ∀ a ∈ t, key a = k → R a (f a)) : t.Grows R n (t.modify k f hf) n :=
  grows_update hf fun a ha hk => h a ha (of_decide_eq_true hk)

/-- Rows that go leave their ids unused. -/
theorem grows_keep {p : α → Bool} : t.Grows R n (t.keep p) n where
  le := Int.le_refl n
  old b hb _ := ⟨b, (mem_keep.mp hb).1, Lineage.refl b⟩
  drawn hdrawn b hb := hdrawn b (mem_keep.mp hb).1

/-! ## Ids that have been in use -/

/-- No id is given twice on the way from a table to the next. The ids that were in
use at any time are those of `used`, and none of them exceeds the last that has been
drawn. Each row of the next table is one of the table before, as it has gone on
under its id, or is new, and then its id exceeds the last. -/
structure DrawsFresh (R : α → α → Prop) (used t : Table α) (n : Int) (t' : Table α) : Prop where
  drawn : ∀ a ∈ used, key a ≤ n
  row : ∀ b ∈ t', (∃ a ∈ t, R a b) ∨ n < key b

omit [Lineage R] in
/-- **Ids are not given again** as a table grows. -/
theorem Grows.drawsFresh (hdrawn : ∀ a ∈ t, key a ≤ n) (h : t.Grows R n t₁ n₁)
    (h' : t₁.Grows R n₁ t' n') : DrawsFresh R t t₁ n₁ t' where
  drawn a ha := Int.le_trans (hdrawn a ha) h.le
  row b hb := by
    rcases Int.lt_or_le n₁ (key b) with hlt | hle
    · exact .inr hlt
    · exact .inl (h'.old b hb hle)

end Table

end JudgeQueue
