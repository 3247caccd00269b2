import JudgeQueue.Proofs.Course.Row
/-!
# The course of judgings — tables

A table of judgings takes its course as its rows do: row by row along the way
of each, with fresh judgings at the end of the sequence, and with candidates
that go while they wait. What the events tell of an id is what the story of its
row has grown by. Nothing has to be said of a row that is not there, so the
same holds of ids that are not in use.
-/

namespace JudgeQueue

namespace Event

/-- Whether the event tells of the course of the judging of an id. -/
def tellsOf (id : Int) : Event → Bool
  | judgingBegun judgingId _ _ => judgingId = id
  | judgingFinished judgingId _ => judgingId = id
  | internalErrorRaised .. => false

/-- Whether the event tells of the internal error of an id. -/
def raises (id : Int) : Event → Bool
  | internalErrorRaised errorId _ _ => errorId = id
  | _ => false

end Event

theorem Judging.tellsOf_finished (j : Judging) (id : Int) :
    j.finished.tellsOf id = decide (j.id = id) := rfl

namespace Table

/-! ## What the row of an id tells -/

section Tale

variable {α : Type} [Keyed α Int] {tell : α → List Event} {t : Table α} {id : Int}

/-- What the row of an id tells. Where there is none, there is nothing to
tell. -/
def tale (tell : α → List Event) (t : Table α) (id : Int) : List Event :=
  ((t.find? id).map tell).getD []

theorem tale_of_mem {a : α} (h : a ∈ t) : t.tale tell (key a) = tell a := by
  rw [tale, find?_key h]
  rfl

theorem tale_of_missing (h : ∀ a ∈ t, key a ≠ id) : t.tale tell id = [] := by
  have hnone : t.find? id = none := by
    rw [Option.eq_none_iff_forall_not_mem]
    intro a ha
    obtain ⟨hmem, hkey⟩ := find?_eq_some_iff.mp ha
    exact h a hmem hkey
  rw [tale, hnone]
  rfl

/-- Rows that change tell what they told, and more. -/
theorem tale_update {p : α → Bool} {f : α → α} (hf : ∀ a, key (f a) = key a) {fs : List Event}
    (hrow : ∀ a ∈ t, key a = id → tell (if p a then f a else a) = tell a ++ fs)
    (hnone : (∀ a ∈ t, key a ≠ id) → fs = []) :
    (t.update p f hf).tale tell id = t.tale tell id ++ fs := by
  rw [tale, tale, find?_update]
  cases hfind : t.find? id with
  | none =>
    have hmissing : ∀ a ∈ t, key a ≠ id := by
      intro a ha hkey
      rw [← hkey, find?_key ha] at hfind
      cases hfind
    rw [hnone hmissing]
    rfl
  | some a =>
    obtain ⟨ha, hkey⟩ := find?_eq_some_iff.mp hfind
    exact hrow a ha hkey

/-- A fresh row tells for itself. -/
theorem tale_insert {r : α} (hfresh : ∀ a ∈ t, key a ≠ key r) :
    (t.insert r).tale tell id = t.tale tell id ++ if key r = id then tell r else [] := by
  by_cases hid : key r = id
  · subst hid
    rw [tale_of_missing hfresh, if_pos rfl, tale, find?_insert, if_pos rfl]
    rfl
  · rw [if_neg hid, List.append_nil, tale, find?_insert, if_neg hid, tale]

/-- Rows without a tale go in silence. -/
theorem tale_keep {p : α → Bool} (h : ∀ a ∈ t, p a = false → tell a = []) :
    (t.keep p).tale tell id = t.tale tell id := by
  rw [tale, tale, find?_keep]
  cases hfind : t.find? id with
  | none => rfl
  | some a =>
    cases hp : p a with
    | true => rw [Option.filter_some_pos hp]
    | false =>
      rw [Option.filter_some_neg hp]
      exact (h a (mem_of_find? hfind) hp).symm

end Tale

/-! ## Ends that are told of together -/

section Finished

variable {t : Table Judging} {p : Judging → Bool}

/-- Among some rows there is one of a key at most. -/
theorem filter_key {α : Type} [Keyed α Int] {t : Table α} {a : α} (ha : a ∈ t) :
    t.filter (fun b => key b = key a) = [a] := by
  have hrows : (t.filter fun b => key b = key a).Nodup :=
    (List.Nodup.of_map _ t.nodup_keys).filter _
  have hsame : ∀ b ∈ t.filter (fun b => key b = key a), b = a := by
    intro b hb
    obtain ⟨hmem, hkey⟩ := mem_filter.mp hb
    exact eq_of_key_eq hmem ha (of_decide_eq_true hkey)
  have hmem : a ∈ t.filter (fun b => key b = key a) :=
    mem_filter.mpr ⟨ha, decide_eq_true rfl⟩
  rw [List.eq_replicate_of_mem hsame] at hrows hmem ⊢
  have hle := List.nodup_replicate.mp hrows
  have hpos := List.length_pos_of_mem hmem
  rw [List.length_replicate] at hpos
  have hone : (t.filter fun b => key b = key a).length = 1 := by omega
  rw [hone]
  rfl

/-- The ends of some judgings tell of one of them by its own end. -/
theorem filter_tellsOf_finished {j : Judging} (hj : j ∈ t) :
    ((t.filter p).map Judging.finished).filter (Event.tellsOf j.id) =
      if p j then [j.finished] else [] := by
  have hswap : (t.filter p).filter (fun i => decide (i.id = j.id)) =
      (t.filter fun i => key i = key j).filter p := by
    rw [Table.filter, Table.filter, List.filter_filter, List.filter_filter]
    exact List.filter_congr fun i _ => Bool.and_comm _ _
  have htells : Event.tellsOf j.id ∘ Judging.finished = fun i => decide (i.id = j.id) := rfl
  rw [List.filter_map, htells, hswap, filter_key hj, List.filter_singleton]
  cases p j <;> rfl

/-- They tell of no other. -/
theorem filter_tellsOf_finished_of_missing {id : Int} (h : ∀ j ∈ t, j.id ≠ id) :
    ((t.filter p).map Judging.finished).filter (Event.tellsOf id) = [] := by
  rw [List.filter_eq_nil_iff]
  intro e he
  obtain ⟨j, hj, rfl⟩ := List.mem_map.mp he
  rw [j.tellsOf_finished, decide_eq_true_eq]
  exact h j (mem_filter.mp hj).1

end Finished

/-! ## The course of a table -/

section Course

variable {t t₁ t' : Table Judging} {n n₁ n' : Int} {es fs : List Event}

/-- Judgings that have their shape have become others that do, and events tell
of the way between. -/
structure Course (t : Table Judging) (n : Int) (es : List Event) (t' : Table Judging) (n' : Int) :
    Prop where
  shaped : ∀ j ∈ t', j.Shaped
  grows : t.Grows Judging.Follows n t' n'
  told : ∀ id, t'.tale Judging.story id = t.tale Judging.story id ++ es.filter (Event.tellsOf id)

/-- What becomes of one judging. -/
theorem Course.row (h : t.Course n es t' n') {j j' : Judging} (hj : j ∈ t) (hle : j.id ≤ n)
    (hj' : j' ∈ t') (hid : j'.id = j.id) :
    j.Follows j' ∧ j'.story = j.story ++ es.filter (Event.tellsOf j.id) := by
  obtain ⟨i, hi, hfollows⟩ := h.grows.old j' hj' (Int.le_trans (Int.le_of_eq hid) hle)
  have hij : i = j := eq_of_key_eq hi hj (hfollows.id.symm.trans hid)
  have htold := h.told j.id
  have hnew : t'.tale Judging.story j.id = j'.story := by
    rw [← hid]
    exact tale_of_mem hj'
  have hold : t.tale Judging.story j.id = j.story := tale_of_mem hj
  rw [hnew, hold] at htold
  exact ⟨hij ▸ hfollows, htold⟩

theorem Course.refl (h : ∀ j ∈ t, j.Shaped) (n : Int)
    (hes : ∀ id, es.filter (Event.tellsOf id) = []) : t.Course n es t n where
  shaped := h
  grows := .refl t n
  told id := by rw [hes, List.append_nil]

theorem Course.trans (h : t.Course n es t₁ n₁) (h' : t₁.Course n₁ fs t' n') :
    t.Course n (es ++ fs) t' n' where
  shaped := h'.shaped
  grows := h.grows.trans h'.grows
  told id := by rw [h'.told, h.told, List.filter_append, List.append_assoc]

/-- Some judgings are led on, each by the events that tell of it. -/
theorem course_update {p : Judging → Bool} {f : Judging → Judging}
    (hf : ∀ j, key (f j) = key j)
    (hlead : ∀ j ∈ t, j.Leads (es.filter (Event.tellsOf j.id)) (if p j then f j else j))
    (hknown : ∀ id, (∀ j ∈ t, j.id ≠ id) → es.filter (Event.tellsOf id) = []) :
    t.Course n es (t.update p f hf) n where
  shaped b hb := by
    obtain ⟨j, hj, rfl⟩ := mem_update.mp hb
    exact (hlead j hj).shaped
  grows := by
    refine grows_update hf fun j hj hp => ?_
    have hfollows := (hlead j hj).follows
    rwa [if_pos hp] at hfollows
  told id := by
    refine tale_update hf (fun j hj hid => ?_) (hknown id)
    have hid : j.id = id := hid
    subst hid
    exact (hlead j hj).story

/-- Some judgings are led on in silence. -/
theorem course_update_silent (h : ∀ j ∈ t, j.Shaped) {p : Judging → Bool} {f : Judging → Judging}
    (hf : ∀ j, key (f j) = key j) (hlead : ∀ j ∈ t, p j = true → j.Leads [] (f j)) :
    t.Course n [] (t.update p f hf) n := by
  refine course_update hf (fun j hj => ?_) fun _ _ => rfl
  split
  · next hp => exact hlead j hj hp
  · exact Judging.leads_refl (h j hj)

/-- One judging is led on by events that all tell of it. -/
theorem course_modify (h : ∀ j ∈ t, j.Shaped) {j : Judging} (hj : j ∈ t) {f : Judging → Judging}
    (hf : ∀ j, key (f j) = key j) (hlead : j.Leads es (f j))
    (hes : ∀ e ∈ es, ∀ id, e.tellsOf id = decide (j.id = id)) :
    t.Course n es (t.modify j.id f hf) n := by
  have hfilter : ∀ id, es.filter (Event.tellsOf id) = if j.id = id then es else [] := by
    intro id
    split
    · next hid =>
      exact List.filter_eq_self.mpr fun e he => by rw [hes e he, decide_eq_true hid]
    · next hid =>
      exact List.filter_eq_nil_iff.mpr fun e he => by rw [hes e he, decide_eq_true_eq]; exact hid
  refine course_update hf (fun i hi => ?_) fun id hmissing => ?_
  · rw [hfilter]
    by_cases hid : i.id = j.id
    · have hij : i = j := eq_of_key_eq hi hj hid
      have hkey : decide (key j = j.id) = true := decide_eq_true rfl
      rw [if_pos hid.symm, hij, if_pos hkey]
      exact hlead
    · have hkey : ¬ decide (key i = j.id) = true := by rwa [decide_eq_true_eq]
      rw [if_neg (Ne.symm hid), if_neg hkey]
      exact Judging.leads_refl (h i hi)
  · rw [hfilter, if_neg (hmissing j hj)]

/-- A judging is queued under the next id. -/
theorem course_queue (h : ∀ j ∈ t, j.Shaped) (hdrawn : ∀ j ∈ t, j.id ≤ n) (new : NewJudging) :
    t.Course n [] (t.insert (new.queued (n + 1))) (n + 1) where
  shaped b hb := by
    rcases mem_insert.mp hb with rfl | ⟨hb, -⟩
    · exact Judging.shaped_queued new (n + 1)
    · exact h b hb
  grows := grows_insert rfl
  told id := by
    rw [tale_insert, Judging.story_queued, ite_self]
    · rfl
    · intro a ha heq
      have hle := hdrawn a ha
      have heq : a.id = n + 1 := heq
      omega

/-- Judgings go that wait. -/
theorem course_keep (h : ∀ j ∈ t, j.Shaped) {p : Judging → Bool}
    (hgone : ∀ j ∈ t, p j = false → j.lifecycle = .queued) :
    t.Course n [] (t.keep p) n where
  shaped b hb := h b (mem_keep.mp hb).1
  grows := grows_keep
  told id := by
    rw [tale_keep fun j hj hp => Judging.story_of_queued (hgone j hj hp)]
    exact (List.append_nil _).symm

end Course

end Table

end JudgeQueue
