import JudgeQueue.Table
import Mathlib.Data.List.Sort
/-!
# Tables — membership and lookup

A table holds one row a key, so a row is found under its key exactly if it
is held. This file reads every operation on tables through membership and
through lookup, and the changes of a whole table through the rows that a
change reaches.
-/

namespace JudgeQueue

namespace Table

variable {α κ : Type} [Keyed α κ] [Ord κ]

@[simp] theorem mem_rows {t : Table α} {a : α} : a ∈ t.rows ↔ a ∈ t := Iff.rfl

@[simp] theorem mem_filter {t : Table α} {p : α → Bool} {a : α} :
    a ∈ t.filter p ↔ a ∈ t ∧ p a = true :=
  List.mem_filter

@[simp] theorem not_mem_empty {a : α} : ¬ a ∈ (∅ : Table α) := List.not_mem_nil

/-! ## Lookup -/

section Lookup

variable [Std.LawfulEqOrd κ]

/-- **One row a key.** Two rows of a table with one key are the same. -/
theorem eq_of_key_eq {t : Table α} {a b : α} (ha : a ∈ t) (hb : b ∈ t) (h : key a = key b) :
    a = b := by
  obtain ⟨rows, hrows⟩ := t
  change a ∈ rows at ha
  change b ∈ rows at hb
  induction rows with
  | nil => cases ha
  | cons r rest ih =>
    obtain ⟨hr, hrest⟩ := List.pairwise_cons.mp hrows
    have apart : ∀ c ∈ rest, key r ≠ key c := by
      intro c hc heq
      have hlt := hr c hc
      rw [heq, Std.compare_self] at hlt
      cases hlt
    rcases List.mem_cons.mp ha with rfl | har <;> rcases List.mem_cons.mp hb with rfl | hbr
    · rfl
    · exact absurd h (apart b hbr)
    · exact absurd h.symm (apart a har)
    · exact ih hrest har hbr

/-- The keys of a table do not repeat. -/
theorem nodup_keys (t : Table α) : (t.rows.map key).Nodup := by
  rw [List.Nodup, List.pairwise_map]
  refine t.ascending.imp fun {a b} hlt heq => ?_
  rw [heq, Std.compare_self] at hlt
  cases hlt

variable [DecidableEq κ]

/-- A row is found under a key exactly if it is held and has the key. -/
theorem find?_eq_some_iff {t : Table α} {k : κ} {a : α} :
    t.find? k = some a ↔ a ∈ t ∧ key a = k := by
  constructor
  · intro h
    exact ⟨List.mem_of_find?_eq_some h, by simpa using List.find?_some h⟩
  · rintro ⟨ha, rfl⟩
    cases h : t.find? (key a) with
    | none => exact absurd (List.find?_eq_none.mp h a ha) (by simp)
    | some b =>
      have hb : b ∈ t := List.mem_of_find?_eq_some h
      have hk : key b = key a := by simpa using List.find?_some h
      rw [eq_of_key_eq hb ha hk]

/-- Every row is found under its key. -/
theorem find?_key {t : Table α} {a : α} (h : a ∈ t) : t.find? (key a) = some a :=
  find?_eq_some_iff.mpr ⟨h, rfl⟩

omit [Std.LawfulEqOrd κ] in
theorem contains_iff {t : Table α} {k : κ} : t.contains k = true ↔ ∃ a ∈ t, key a = k := by
  rw [contains, find?, List.find?_isSome]
  simp

omit [Std.LawfulEqOrd κ] in
theorem mem_of_find? {t : Table α} {k : κ} {a : α} (h : t.find? k = some a) : a ∈ t :=
  List.mem_of_find?_eq_some h

omit [Std.LawfulEqOrd κ] in
theorem key_of_find? {t : Table α} {k : κ} {a : α} (h : t.find? k = some a) : key a = k := by
  simpa using List.find?_some h

/-- **Tables are told apart by lookups.** -/
theorem ext_find? [Std.OrientedOrd κ] {t t' : Table α} (h : ∀ k, t.find? k = t'.find? k) :
    t = t' := by
  have hmem : ∀ a, a ∈ t.rows ↔ a ∈ t'.rows := by
    intro a
    have hfound : a ∈ t ↔ a ∈ t' := by
      have hiff := congrArg (fun o => o = some a) (h (key a))
      simpa [find?_eq_some_iff] using hiff
    exact hfound
  -- the order of the keys leaves no choice to the rows
  have hirrefl : Std.Irrefl fun a b : α => compare (key a) (key b) = .lt :=
    ⟨fun a hlt => by rw [Std.compare_self] at hlt; cases hlt⟩
  have hantisymm : Std.Antisymm fun a b : α => compare (key a) (key b) = .lt :=
    ⟨fun a b hlt hgt => by rw [Std.OrientedOrd.eq_swap, hgt] at hlt; cases hlt⟩
  exact ext (t.ascending.eq_of_mem_iff t'.ascending hmem)

end Lookup

/-! ## Changes of rows -/

theorem mem_update {t : Table α} {p : α → Bool} {f : α → α} {hf : ∀ a, key (f a) = key a} {b : α} :
    b ∈ t.update p f hf ↔ ∃ a ∈ t, b = if p a then f a else a := by
  change b ∈ t.rows.map _ ↔ _
  simp only [List.mem_map, mem_rows, eq_comm]

/-- Two changes of the rows of a table are the same if they agree row by
row. -/
theorem update_congr {t : Table α} {p q : α → Bool} {f g : α → α}
    {hf : ∀ a, key (f a) = key a} {hg : ∀ a, key (g a) = key a}
    (h : ∀ a ∈ t, (if p a then f a else a) = if q a then g a else a) :
    t.update p f hf = t.update q g hg :=
  Table.ext (List.map_congr_left h)

/-- One change after another is one change, if it agrees with both row by
row. -/
theorem update_update {t : Table α} {p q r : α → Bool} {f g e : α → α}
    {hf : ∀ a, key (f a) = key a} {hg : ∀ a, key (g a) = key a} {he : ∀ a, key (e a) = key a}
    (h : ∀ a ∈ t, (if q (if p a then f a else a) then g (if p a then f a else a)
      else if p a then f a else a) = if r a then e a else a) :
    (t.update p f hf).update q g hg = t.update r e he := by
  refine Table.ext ?_
  change (t.rows.map _).map _ = t.rows.map _
  rw [List.map_map]
  exact List.map_congr_left h

/-- A change that reaches no row changes nothing. -/
theorem update_eq_self {t : Table α} {p : α → Bool} {f : α → α} {hf : ∀ a, key (f a) = key a}
    (h : ∀ a ∈ t, p a = true → f a = a) : t.update p f hf = t := by
  refine Table.ext ?_
  change t.rows.map _ = t.rows
  refine (List.map_congr_left fun a ha => ?_).trans (List.map_id t.rows)
  by_cases hp : p a = true
  · rw [if_pos hp, h a ha hp, id]
  · rw [if_neg hp, id]

/-- A change that the next one takes back leaves the table as it was. -/
theorem update_update_eq_self {t : Table α} {p q : α → Bool} {f g : α → α}
    {hf : ∀ a, key (f a) = key a} {hg : ∀ a, key (g a) = key a}
    (hback : ∀ a ∈ t, p a = true → q (f a) = true ∧ g (f a) = a)
    (hother : ∀ a ∈ t, p a = false → q a = false) : (t.update p f hf).update q g hg = t := by
  refine Table.ext ?_
  change (t.rows.map _).map _ = t.rows
  rw [List.map_map]
  refine (List.map_congr_left fun a ha => ?_).trans (List.map_id t.rows)
  rw [Function.comp_apply, id]
  cases hp : p a with
  | true =>
    obtain ⟨hq, hid⟩ := hback a ha hp
    rw [if_pos rfl, if_pos hq, hid]
  | false =>
    rw [if_neg Bool.false_ne_true, hother a ha hp, if_neg Bool.false_ne_true]

theorem mem_keep {t : Table α} {p : α → Bool} {a : α} : a ∈ t.keep p ↔ a ∈ t ∧ p a = true :=
  List.mem_filter

/-- Dropping no row changes nothing. -/
theorem keep_eq_self {t : Table α} {p : α → Bool} (h : ∀ a ∈ t, p a = true) : t.keep p = t :=
  Table.ext (List.filter_eq_self.mpr h)

theorem find?_keep [DecidableEq κ] [Std.LawfulEqOrd κ] {t : Table α} {p : α → Bool} {k : κ} :
    (t.keep p).find? k = (t.find? k).filter p := by
  apply Option.ext
  intro b
  rw [find?_eq_some_iff, mem_keep, Option.filter_eq_some_iff, find?_eq_some_iff]
  exact and_right_comm

section Modify

variable [DecidableEq κ]

theorem mem_modify {t : Table α} {k : κ} {f : α → α} {hf : ∀ a, key (f a) = key a} {b : α} :
    b ∈ t.modify k f hf ↔ (∃ a ∈ t, key a = k ∧ b = f a) ∨ b ∈ t ∧ key b ≠ k := by
  rw [modify, mem_update]
  constructor
  · rintro ⟨a, ha, rfl⟩
    by_cases h : key a = k
    · exact .inl ⟨a, ha, h, by simp [h]⟩
    · refine .inr ?_
      simp only [h, decide_false, Bool.false_eq_true, if_false]
      exact ⟨ha, h⟩
  · rintro (⟨a, ha, h, rfl⟩ | ⟨hb, h⟩)
    · exact ⟨a, ha, by simp [h]⟩
    · exact ⟨b, hb, by simp [h]⟩

/-- Two changes of the row of a key are the same if they agree on that
row. -/
theorem modify_congr {t : Table α} {k : κ} {f g : α → α}
    {hf : ∀ a, key (f a) = key a} {hg : ∀ a, key (g a) = key a}
    (h : ∀ a ∈ t, key a = k → f a = g a) : t.modify k f hf = t.modify k g hg := by
  refine update_congr fun a ha => ?_
  by_cases hk : key a = k
  · simp [hk, h a ha hk]
  · simp [hk]

/-- One change of the row of a key after another is one change, if it agrees with
both on that row. -/
theorem modify_modify {t : Table α} {k : κ} {f g e : α → α} (hf : ∀ a, key (f a) = key a)
    (hg : ∀ a, key (g a) = key a) (he : ∀ a, key (e a) = key a)
    (h : ∀ a ∈ t, key a = k → g (f a) = e a) :
    (t.modify k f hf).modify k g hg = t.modify k e he := by
  refine update_update fun a ha => ?_
  by_cases hk : key a = k
  · simp [hk, hf, h a ha hk]
  · simp [hk]

theorem find?_update {t : Table α} {p : α → Bool} {f : α → α} {hf : ∀ a, key (f a) = key a}
    {k : κ} : (t.update p f hf).find? k = (t.find? k).map fun a => if p a then f a else a := by
  change (t.rows.map _).find? _ = _
  rw [List.find?_map, find?]
  congr 2
  funext a
  simp only [Function.comp]
  split <;> simp [hf]

/-- A change of rows keeps one of every key. -/
theorem contains_update {t : Table α} {p : α → Bool} {f : α → α} {hf : ∀ a, key (f a) = key a}
    {k : κ} : (t.update p f hf).contains k = t.contains k := by
  rw [contains, contains, find?_update, Option.isSome_map]

theorem find?_modify {t : Table α} {k l : κ} {f : α → α} {hf : ∀ a, key (f a) = key a} :
    (t.modify k f hf).find? l = (t.find? l).map fun a => if key a = k then f a else a := by
  rw [modify, find?_update]
  simp

/-- A change of a row keeps one of every key. -/
theorem contains_modify {t : Table α} {k l : κ} {f : α → α} {hf : ∀ a, key (f a) = key a} :
    (t.modify k f hf).contains l = t.contains l :=
  contains_update

end Modify

/-! ## New rows -/

section Insert

variable [Std.TransOrd κ] [Std.LawfulEqOrd κ]

omit [Std.TransOrd κ] [Std.LawfulEqOrd κ] in
theorem mem_place_self {r : α} {rows : List α} : r ∈ place r rows := by
  induction rows with
  | nil => simp [place]
  | cons a rest ih =>
    simp only [place]
    split
    · exact List.mem_cons_self
    · exact List.mem_cons_self
    · exact List.mem_cons_of_mem _ ih

omit [Std.TransOrd κ] in
theorem mem_place_of_ne {r b : α} {rows : List α} (hb : b ∈ rows) (h : key b ≠ key r) :
    b ∈ place r rows := by
  induction rows with
  | nil => cases hb
  | cons a rest ih =>
    simp only [place]
    split
    · exact List.mem_cons_of_mem _ hb
    · next heq =>
      rcases List.mem_cons.mp hb with rfl | hb
      · exact absurd (Std.compare_eq_iff_eq.mp heq).symm h
      · exact List.mem_cons_of_mem _ hb
    · rcases List.mem_cons.mp hb with rfl | hb
      · exact List.mem_cons_self
      · exact List.mem_cons_of_mem _ (ih hb)

/-- **After an insertion** a table holds the new row, and of the others those
with another key. -/
theorem mem_insert {t : Table α} {r b : α} : b ∈ t.insert r ↔ b = r ∨ b ∈ t ∧ key b ≠ key r := by
  constructor
  · intro h
    by_cases hk : key b = key r
    · exact .inl (eq_of_key_eq h mem_place_self hk)
    · exact (mem_of_mem_place h).imp_right fun hb => ⟨hb, hk⟩
  · rintro (rfl | ⟨hb, hk⟩)
    · exact mem_place_self
    · exact mem_place_of_ne hb hk

/-- A row with a key of its own takes the place of none. -/
theorem mem_insert_of_fresh {t : Table α} {r b : α} (h : ∀ a ∈ t, key a ≠ key r) :
    b ∈ t.insert r ↔ b = r ∨ b ∈ t := by
  rw [mem_insert]
  exact or_congr_right ⟨And.left, fun hb => ⟨hb, h b hb⟩⟩

theorem find?_insert [DecidableEq κ] {t : Table α} {r : α} {k : κ} :
    (t.insert r).find? k = if key r = k then some r else t.find? k := by
  apply Option.ext
  intro b
  rw [find?_eq_some_iff, mem_insert]
  by_cases hk : key r = k
  · rw [if_pos hk, Option.some.injEq]
    constructor
    · rintro ⟨rfl | ⟨-, hne⟩, hb⟩
      · rfl
      · exact absurd (hb.trans hk.symm) hne
    · rintro rfl
      exact ⟨.inl rfl, hk⟩
  · rw [if_neg hk, find?_eq_some_iff]
    constructor
    · rintro ⟨rfl | ⟨hb, -⟩, hkb⟩
      · exact absurd hkb hk
      · exact ⟨hb, hkb⟩
    · rintro ⟨hb, hkb⟩
      exact ⟨.inr ⟨hb, fun h => hk (h.symm.trans hkb)⟩, hkb⟩

/-- A row with a key of its own is added to the others. -/
theorem insert_perm {t : Table α} {r : α} (h : ∀ a ∈ t, key a ≠ key r) :
    (t.insert r).rows.Perm (r :: t.rows) := by
  have hplace : ∀ rows : List α, (∀ a ∈ rows, key a ≠ key r) → (place r rows).Perm (r :: rows) := by
    intro rows
    induction rows with
    | nil => exact fun _ => .refl _
    | cons a rest ih =>
      intro h
      simp only [place]
      split
      · exact .refl _
      · next heq => exact absurd (Std.compare_eq_iff_eq.mp heq).symm (h a List.mem_cons_self)
      · exact (List.Perm.cons a (ih fun b hb => h b (List.mem_cons_of_mem _ hb))).trans
          (List.Perm.swap r a rest)
  exact hplace t.rows h

/-- **A row with the greatest key** joins at the end. -/
theorem rows_insert_of_lt {t : Table α} {r : α} (h : ∀ a ∈ t, compare (key a) (key r) = .lt) :
    (t.insert r).rows = t.rows ++ [r] := by
  have hplace : ∀ rows : List α, (∀ a ∈ rows, compare (key a) (key r) = .lt) →
      place r rows = rows ++ [r] := by
    intro rows hrows
    induction rows with
    | nil => rfl
    | cons a rest ih =>
      obtain ⟨ha, hrest⟩ := List.forall_mem_cons.mp hrows
      rw [place, Std.OrientedCmp.gt_of_lt ha, List.cons_append]
      exact congrArg (a :: ·) (ih hrest)
  exact hplace t.rows h

/-- A row that gets the next id joins at the end. -/
theorem rows_insert_of_le {β : Type} [Keyed β Int] {t : Table β} {r : β} {last : Int}
    (h : ∀ a ∈ t, (key a : Int) ≤ last) (hr : (key r : Int) = last + 1) :
    (t.insert r).rows = t.rows ++ [r] := by
  refine rows_insert_of_lt fun a ha => Std.compare_eq_lt.mpr ?_
  rw [hr]
  exact Int.lt_add_one_of_le (h a ha)

/-- Rows with different keys that are inserted one after another are found
before those of the table. -/
theorem find?_foldl_insert [DecidableEq κ] {rows : List α} {t : Table α} {k : κ}
    (h : (rows.map key).Nodup) :
    (rows.foldl insert t).find? k = (rows.find? fun a => key a = k).or (t.find? k) := by
  induction rows generalizing t with
  | nil => rfl
  | cons r rest ih =>
    obtain ⟨hr, hrest⟩ := List.nodup_cons.mp h
    rw [List.foldl_cons, ih hrest, find?_insert, List.find?_cons]
    by_cases hk : key r = k
    · have hnone : rest.find? (fun a => key a = k) = none := by
        rw [List.find?_eq_none]
        intro a ha
        have hne : key a ≠ k := fun hak => hr (hk.trans hak.symm ▸ List.mem_map_of_mem ha)
        simpa using hne
      simp [hk, hnone]
    · simp [hk]

/-- A row of a table after some insertions was inserted or held before. -/
theorem mem_foldl_insert {rows : List α} {t : Table α} {b : α} (h : b ∈ rows.foldl insert t) :
    b ∈ rows ∨ b ∈ t := by
  induction rows generalizing t with
  | nil => exact .inr h
  | cons r rest ih =>
    rcases ih h with h | h
    · exact .inl (List.mem_cons_of_mem _ h)
    · rcases mem_insert.mp h with rfl | ⟨h, -⟩
      · exact .inl List.mem_cons_self
      · exact .inr h

end Insert

/-! ## Changes of different rows -/

section Commute

variable [DecidableEq κ] [Std.TransOrd κ] [Std.LawfulEqOrd κ]

/-- **Changing a row that is there** is writing what becomes of it in its
place. -/
theorem modify_eq_insert {t : Table α} {k : κ} {f : α → α} (hf : ∀ a, key (f a) = key a) {a : α}
    (ha : a ∈ t) (hk : key a = k) : t.modify k f hf = t.insert (f a) := by
  refine ext_find? fun l => ?_
  rw [find?_modify, find?_insert, hf, hk]
  by_cases hl : k = l
  · rw [if_pos hl, ← hl, ← hk, find?_key ha, Option.map_some, if_pos rfl]
  · rw [if_neg hl]
    cases hfind : t.find? l with
    | none => rfl
    | some b =>
      have hb : key b ≠ k := fun heq => hl (heq.symm.trans (key_of_find? hfind))
      rw [Option.map_some, if_neg hb]

/-- Rows of different keys are written in any order. -/
theorem insert_comm {t : Table α} {a b : α} (h : key a ≠ key b) :
    (t.insert a).insert b = (t.insert b).insert a := by
  refine ext_find? fun l => ?_
  simp only [find?_insert]
  by_cases ha : key a = l
  · rw [if_pos ha, if_pos ha, if_neg fun hb => h (ha.trans hb.symm)]
  · rw [if_neg ha, if_neg ha]

/-- A row is written before or after another one changes. -/
theorem modify_insert_comm {t : Table α} {k : κ} {f : α → α} {hf : ∀ a, key (f a) = key a} {a : α}
    (h : key a ≠ k) : (t.insert a).modify k f hf = (t.modify k f hf).insert a := by
  refine ext_find? fun l => ?_
  simp only [find?_insert, find?_modify]
  by_cases ha : key a = l
  · rw [if_pos ha, if_pos ha, Option.map_some, if_neg h]
  · rw [if_neg ha, if_neg ha]

/-- Changes of different rows are made in any order. -/
theorem modify_comm {t : Table α} {k l : κ} {f g : α → α} {hf : ∀ a, key (f a) = key a}
    {hg : ∀ a, key (g a) = key a} (h : k ≠ l) :
    (t.modify k f hf).modify l g hg = (t.modify l g hg).modify k f hf := by
  refine ext_find? fun m => ?_
  simp only [find?_modify, Option.map_map]
  congr 1
  funext a
  by_cases hk : key a = k
  · simp [hk, hf, h]
  · by_cases hl : key a = l <;> simp [hk, hl, hg, h.symm]

end Commute

/-! ## Rows that a test refuses -/

section Filter

variable {q : α → Bool}

/-- Changing rows that a test refuses, before and after, does not show in what
it accepts. -/
theorem filter_update_of_not {t : Table α} {p : α → Bool} {f : α → α}
    (hf : ∀ a, key (f a) = key a)
    (h : ∀ a ∈ t, p a = true → q a = false ∧ q (f a) = false) :
    (t.update p f hf).filter q = t.filter q := by
  obtain ⟨rows, _⟩ := t
  change (rows.map _).filter q = rows.filter q
  change ∀ a ∈ rows, p a = true → _ at h
  induction rows with
  | nil => rfl
  | cons a rest ih =>
    obtain ⟨ha, hrest⟩ := List.forall_mem_cons.mp h
    rw [List.map_cons, List.filter_cons, List.filter_cons, ih (List.Pairwise.of_cons ‹_›) hrest]
    by_cases hp : p a = true
    · rw [if_pos hp, (ha hp).1, (ha hp).2]
      rfl
    · rw [if_neg hp]

/-- Nor does dropping them. -/
theorem filter_keep_of_not {t : Table α} {p : α → Bool} (h : ∀ a ∈ t, q a = true → p a = true) :
    (t.keep p).filter q = t.filter q := by
  change (t.rows.filter p).filter q = t.rows.filter q
  rw [List.filter_filter]
  refine List.filter_congr fun a ha => ?_
  cases hq : q a with
  | false => rfl
  | true => rw [h a ha hq]; rfl

/-- Nor does adding one, in the place of another that it refuses or of
none. -/
theorem filter_insert_of_not [Std.TransOrd κ] [Std.LawfulEqOrd κ] {t : Table α} {r : α}
    (hr : q r = false) (h : ∀ a ∈ t, key a = key r → q a = false) :
    (t.insert r).filter q = t.filter q := by
  obtain ⟨rows, _⟩ := t
  change (place r rows).filter q = rows.filter q
  change ∀ a ∈ rows, key a = key r → _ at h
  induction rows with
  | nil => simp [place, hr]
  | cons a rest ih =>
    obtain ⟨ha, hrest⟩ := List.forall_mem_cons.mp h
    simp only [place]
    split
    · rw [List.filter_cons, hr, if_neg Bool.false_ne_true]
    · next heq =>
      have hkey : key a = key r := (Std.compare_eq_iff_eq.mp heq).symm
      simp [hr, ha hkey]
    · rw [List.filter_cons, List.filter_cons, ih (List.Pairwise.of_cons ‹_›) hrest]

end Filter

end Table

end JudgeQueue
