/-!
# Ordered tables

A table keeps its rows in ascending order of their keys, one row a key. The
order is part of the type, so two tables with the same rows are equal and
every operation below keeps it.
-/

namespace JudgeQueue

/-- A row carries the key under which a table keeps it. -/
class Keyed (α : Type) (κ : outParam Type) where
  key : α → κ

export Keyed (key)

/-- Rows in ascending order of their keys. -/
structure Table (α : Type) {κ : Type} [Keyed α κ] [Ord κ] where
  rows : List α
  ascending : rows.Pairwise fun a b => compare (key a) (key b) = .lt

namespace Table

variable {α κ : Type} [Keyed α κ] [Ord κ]

@[ext] theorem ext {s t : Table α} (h : s.rows = t.rows) : s = t := by
  obtain ⟨rows, _⟩ := s
  subst h
  rfl

/-- The table without rows. -/
def empty : Table α := ⟨[], .nil⟩

instance : EmptyCollection (Table α) := ⟨empty⟩

instance : Inhabited (Table α) := ⟨empty⟩

instance : Membership α (Table α) := ⟨fun t a => a ∈ t.rows⟩

/-- The row of a key. -/
def find? [DecidableEq κ] (t : Table α) (k : κ) : Option α :=
  t.rows.find? fun a => key a = k

/-- Whether there is a row of a key. -/
def contains [DecidableEq κ] (t : Table α) (k : κ) : Bool :=
  (t.find? k).isSome

/-- The rows that a test accepts, in order. -/
def filter (t : Table α) (p : α → Bool) : List α :=
  t.rows.filter p

/-- The table of the rows that a test accepts. -/
def keep (t : Table α) (p : α → Bool) : Table α :=
  ⟨t.rows.filter p, t.ascending.filter p⟩

theorem ascending_map {rows : List α} {f : α → α} (hf : ∀ a, key (f a) = key a)
    (h : rows.Pairwise fun a b => compare (key a) (key b) = .lt) :
    (rows.map f).Pairwise fun a b => compare (key a) (key b) = .lt := by
  rw [List.pairwise_map]
  exact h.imp fun h => by rwa [hf, hf]

/-- Changes the rows that a test accepts. A change keeps the key. -/
def update (t : Table α) (p : α → Bool) (f : α → α) (hf : ∀ a, key (f a) = key a) : Table α :=
  ⟨t.rows.map fun a => if p a then f a else a,
    ascending_map (fun a => by split <;> simp [hf]) t.ascending⟩

/-- Changes the row of a key. A change keeps the key. -/
def modify [DecidableEq κ] (t : Table α) (k : κ) (f : α → α) (hf : ∀ a, key (f a) = key a) :
    Table α :=
  t.update (fun a => key a = k) f hf

/-- The rows with one placed among them; it takes the place of a row with
its key. -/
def place (r : α) : List α → List α
  | [] => [r]
  | a :: rest =>
    match compare (key r) (key a) with
    | .lt => r :: a :: rest
    | .eq => r :: rest
    | .gt => a :: place r rest

theorem mem_of_mem_place {r b : α} {rows : List α} (h : b ∈ place r rows) : b = r ∨ b ∈ rows := by
  induction rows with
  | nil => simpa [place] using h
  | cons a rest ih =>
    simp only [place] at h
    split at h
    · simpa using h
    · rcases List.mem_cons.mp h with h | h
      · exact .inl h
      · exact .inr (List.mem_cons_of_mem _ h)
    · rcases List.mem_cons.mp h with h | h
      · exact .inr (h ▸ List.mem_cons_self)
      · exact (ih h).imp_right (List.mem_cons_of_mem _)

theorem ascending_place [Std.TransOrd κ] [Std.LawfulEqOrd κ] {r : α} {rows : List α}
    (h : rows.Pairwise fun a b => compare (key a) (key b) = .lt) :
    (place r rows).Pairwise fun a b => compare (key a) (key b) = .lt := by
  induction rows with
  | nil => simp [place]
  | cons a rest ih =>
    obtain ⟨ha, hrest⟩ := List.pairwise_cons.mp h
    simp only [place]
    split
    · next hlt =>
      refine List.pairwise_cons.mpr ⟨fun b hb => ?_, h⟩
      rcases List.mem_cons.mp hb with rfl | hb
      · exact hlt
      · exact Std.TransCmp.lt_trans hlt (ha b hb)
    · next heq =>
      refine List.pairwise_cons.mpr ⟨fun b hb => ?_, hrest⟩
      rw [Std.compare_eq_iff_eq.mp heq]
      exact ha b hb
    · next hgt =>
      refine List.pairwise_cons.mpr ⟨fun b hb => ?_, ih hrest⟩
      rcases mem_of_mem_place hb with rfl | hb
      · exact Std.OrientedCmp.lt_of_gt hgt
      · exact ha b hb

variable [Std.TransOrd κ] [Std.LawfulEqOrd κ]

/-- Adds a row, in the place of the row with its key if there is one. -/
def insert (t : Table α) (r : α) : Table α :=
  ⟨place r t.rows, ascending_place t.ascending⟩

/-- Changes the row under the key of `fresh`, which stands for it while
there is none. -/
def alter [DecidableEq κ] (t : Table α) (fresh : α) (f : α → α) : Table α :=
  t.insert (f ((t.find? (key fresh)).getD fresh))

/-- The table of some rows; of two rows with one key the later one stays. -/
def ofList (rows : List α) : Table α :=
  rows.foldl insert empty

end Table

end JudgeQueue
