import JudgeQueue.Proofs.Course.Change
import JudgeQueue.Proofs.Grading.Run
/-!
# Recovery — judgings that are requeued

Requeueing works on rows that were read before, one at a time and judgehost by
judgehost, and what has been requeued is in the same table as what has not.
Still every judging that was to be requeued is, just once, and nothing else is
touched: one that has been abandoned is no longer held, and neither is a
replacement.
-/

namespace JudgeQueue

open Transaction

/-- The judging as it is left when it is abandoned. -/
def Judging.abandonedAt (now : Instant) (j : Judging) : Judging :=
  { j with
    active := false
    lifecycle := .finalized
    verdict := some .undefinedError
    rejudgingId := none
    previousJudgingId := none
    stopTime := some now }

/-- What is requeued is a judging, abandoned, and a fresh attempt in its
place. -/
structure Requeued.Replaces (r : Requeued) (j : Judging) (now : Instant) : Prop where
  abandoned : r.abandoned = j.abandonedAt now
  replacement : r.replacement =
    NewJudging.queued ⟨j.submissionId, j.active, j.fullTest, j.rejudgingId, j.previousJudgingId⟩
      r.replacement.id

namespace Table

/-- From a table of judgings some that are held have been requeued, each of
them once, and the others are as they were. -/
structure Recovers (t : Table Judging) (A : Judging → Prop) (now : Instant)
    (rs : List Requeued) (t' : Table Judging) : Prop where
  held : ∀ j ∈ t, A j → j.lifecycle = .claimed
  requeued : ∀ j ∈ t, A j → ∃ r ∈ rs, r.Replaces j now
  only : ∀ r ∈ rs, ∃ j ∈ t, A j ∧ r.Replaces j now
  abandoned_once : (rs.map fun r => r.abandoned.id).Nodup
  replacement_once : (rs.map fun r => r.replacement.id).Nodup
  fresh : ∀ r ∈ rs, ∀ j ∈ t, j.id ≠ r.replacement.id
  mem : ∀ b, b ∈ t' ↔ b ∈ t ∧ ¬ A b ∨ ∃ r ∈ rs, b = r.abandoned ∨ b = r.replacement

variable {t t₁ t' : Table Judging} {A B : Judging → Prop} {now : Instant}
variable {rs rs' : List Requeued}

namespace Recovers

/-- Nothing is requeued. -/
theorem nil (h : ∀ j ∈ t, ¬ A j) : t.Recovers A now [] t where
  held j hj hA := absurd hA (h j hj)
  requeued j hj hA := absurd hA (h j hj)
  only r hr := absurd hr List.not_mem_nil
  abandoned_once := List.nodup_nil
  replacement_once := List.nodup_nil
  fresh r hr := absurd hr List.not_mem_nil
  mem b := by
    constructor
    · exact fun hb => .inl ⟨hb, h b hb⟩
    · rintro (⟨hb, -⟩ | ⟨r, hr, -⟩)
      · exact hb
      · cases hr

/-- It only matters which judgings of the table are requeued. -/
theorem congr (h : t.Recovers A now rs t') (hAB : ∀ j ∈ t, A j ↔ B j) :
    t.Recovers B now rs t' where
  held j hj hB := h.held j hj ((hAB j hj).mpr hB)
  requeued j hj hB := h.requeued j hj ((hAB j hj).mpr hB)
  only r hr := by
    obtain ⟨j, hj, hA, hreplaces⟩ := h.only r hr
    exact ⟨j, hj, (hAB j hj).mp hA, hreplaces⟩
  abandoned_once := h.abandoned_once
  replacement_once := h.replacement_once
  fresh := h.fresh
  mem b := by
    rw [h.mem]
    refine or_congr_left ?_
    exact and_congr_right fun hb => not_congr (hAB b hb)

/-- What is abandoned is there, and has ended. -/
theorem mem_abandoned (h : t.Recovers A now rs t') {r : Requeued} (hr : r ∈ rs) :
    r.abandoned ∈ t' ∧ r.abandoned.lifecycle = .finalized := by
  obtain ⟨j, -, -, hreplaces⟩ := h.only r hr
  refine ⟨(h.mem _).mpr (.inr ⟨r, hr, .inl rfl⟩), ?_⟩
  rw [hreplaces.abandoned]
  rfl

/-- So is its replacement, which waits. -/
theorem mem_replacement (h : t.Recovers A now rs t') {r : Requeued} (hr : r ∈ rs) :
    r.replacement ∈ t' ∧ r.replacement.lifecycle = .queued := by
  obtain ⟨j, -, -, hreplaces⟩ := h.only r hr
  refine ⟨(h.mem _).mpr (.inr ⟨r, hr, .inr rfl⟩), ?_⟩
  rw [hreplaces.replacement]
  rfl

/-- What is held afterwards was there before, and was not requeued. -/
theorem mem_of_claimed (h : t.Recovers A now rs t') {b : Judging} (hb : b ∈ t')
    (hl : b.lifecycle = .claimed) : b ∈ t ∧ ¬ A b := by
  rcases (h.mem b).mp hb with hkept | ⟨r, hr, rfl | rfl⟩
  · exact hkept
  · rw [(h.mem_abandoned hr).2] at hl
    cases hl
  · rw [(h.mem_replacement hr).2] at hl
    cases hl

/-- **One recovery after another** requeues what either does. What the first
has requeued is not held any more, so the second leaves it alone. -/
theorem trans (h : t.Recovers A now rs t₁) (h' : t₁.Recovers B now rs' t') :
    t.Recovers (fun j => A j ∨ B j) now (rs ++ rs') t' := by
  have hkept : ∀ j ∈ t, ¬ A j → j ∈ t₁ := fun j hj hA => (h.mem j).mpr (.inl ⟨hj, hA⟩)
  have hearlier : ∀ j ∈ t₁, B j → j ∈ t ∧ ¬ A j := fun j hj hB =>
    h.mem_of_claimed hj (h'.held j hj hB)
  refine ⟨?held, ?requeued, ?only, ?abandoned, ?replacement, ?fresh, ?mem⟩
  case held =>
    intro j hj hAB
    by_cases hA : A j
    · exact h.held j hj hA
    · exact h'.held j (hkept j hj hA) (hAB.resolve_left hA)
  case requeued =>
    intro j hj hAB
    by_cases hA : A j
    · obtain ⟨r, hr, hreplaces⟩ := h.requeued j hj hA
      exact ⟨r, List.mem_append_left rs' hr, hreplaces⟩
    · obtain ⟨r, hr, hreplaces⟩ := h'.requeued j (hkept j hj hA) (hAB.resolve_left hA)
      exact ⟨r, List.mem_append_right rs hr, hreplaces⟩
  case only =>
    intro r hr
    rcases List.mem_append.mp hr with hr | hr
    · obtain ⟨j, hj, hA, hreplaces⟩ := h.only r hr
      exact ⟨j, hj, .inl hA, hreplaces⟩
    · obtain ⟨j, hj, hB, hreplaces⟩ := h'.only r hr
      exact ⟨j, (hearlier j hj hB).1, .inr hB, hreplaces⟩
  case abandoned =>
    rw [List.map_append, List.nodup_append]
    refine ⟨h.abandoned_once, h'.abandoned_once, ?_⟩
    rintro _ hmem _ hmem' rfl
    obtain ⟨r, hr, hid⟩ := List.mem_map.mp hmem
    obtain ⟨r', hr', hid'⟩ := List.mem_map.mp hmem'
    obtain ⟨j, hj, hB, hreplaces⟩ := h'.only r' hr'
    -- the second one would abandon what has ended
    have hsame : r.abandoned = j := by
      refine eq_of_key_eq (h.mem_abandoned hr).1 hj ?_
      rw [hreplaces.abandoned] at hid'
      exact hid.trans hid'.symm
    have hl := h'.held j hj hB
    rw [← hsame, (h.mem_abandoned hr).2] at hl
    cases hl
  case replacement =>
    rw [List.map_append, List.nodup_append]
    refine ⟨h.replacement_once, h'.replacement_once, ?_⟩
    rintro _ hmem _ hmem' rfl
    obtain ⟨r, hr, hid⟩ := List.mem_map.mp hmem
    obtain ⟨r', hr', hid'⟩ := List.mem_map.mp hmem'
    exact h'.fresh r' hr' r.replacement (h.mem_replacement hr).1 (hid.trans hid'.symm)
  case fresh =>
    intro r hr j hj
    rcases List.mem_append.mp hr with hr | hr
    · exact h.fresh r hr j hj
    · by_cases hA : A j
      · -- the judging is there still, abandoned, under the same id
        obtain ⟨q, hq, hreplaces⟩ := h.requeued j hj hA
        have hne := h'.fresh r hr q.abandoned (h.mem_abandoned hq).1
        rwa [hreplaces.abandoned] at hne
      · exact h'.fresh r hr j (hkept j hj hA)
  case mem =>
    intro b
    rw [h'.mem, h.mem]
    constructor
    · rintro (⟨⟨hb, hA⟩ | ⟨r, hr, hrow⟩, hB⟩ | ⟨r, hr, hrow⟩)
      · exact .inl ⟨hb, fun hAB => hAB.elim hA hB⟩
      · exact .inr ⟨r, List.mem_append_left rs' hr, hrow⟩
      · exact .inr ⟨r, List.mem_append_right rs hr, hrow⟩
    · rintro (⟨hb, hAB⟩ | ⟨r, hr, hrow⟩)
      · rw [not_or] at hAB
        exact .inl ⟨.inl ⟨hb, hAB.1⟩, hAB.2⟩
      · rcases List.mem_append.mp hr with hr | hr
        · refine .inl ⟨.inr ⟨r, hr, hrow⟩, fun hB => ?_⟩
          have hb : b ∈ t₁ := (h.mem b).mpr (.inr ⟨r, hr, hrow⟩)
          have hl := h'.held b hb hB
          rcases hrow with rfl | rfl
          · rw [(h.mem_abandoned hr).2] at hl
            cases hl
          · rw [(h.mem_replacement hr).2] at hl
            cases hl
        · exact .inr ⟨r, hr, hrow⟩

/-- A recovery that requeues nothing had nothing to requeue. -/
theorem not_of_nil (h : t.Recovers A now [] t') {j : Judging} (hj : j ∈ t) : ¬ A j := by
  intro hA
  obtain ⟨r, hr, -⟩ := h.requeued j hj hA
  cases hr

/-- And one that has nothing to requeue requeues nothing. -/
theorem eq_nil (h : t.Recovers A now rs t') (hnone : ∀ j ∈ t, ¬ A j) : rs = [] := by
  rw [List.eq_nil_iff_forall_not_mem]
  intro r hr
  obtain ⟨j, hj, hA, -⟩ := h.only r hr
  exact hnone j hj hA

end Recovers

end Table

namespace Store

variable {s s₁ s' : Store} {A B : Judging → Prop} {now : Instant} {rs rs' : List Requeued}

/-- Judgings have been requeued, and nothing else has happened. -/
structure Requeues (s : Store) (A : Judging → Prop) (now : Instant) (rs : List Requeued)
    (s' : Store) : Prop where
  judgings : s.judgings.Recovers A now rs s'.judgings
  frame : s' = { s with judgings := s'.judgings, lastJudging := s'.lastJudging }
  course : s'.OnCourse

theorem Requeues.nil (h : s.OnCourse) (hnone : ∀ j ∈ s.judgings, ¬ A j) :
    s.Requeues A now [] s :=
  ⟨.nil hnone, rfl, h⟩

theorem Requeues.congr (h : s.Requeues A now rs s') (hAB : ∀ j ∈ s.judgings, A j ↔ B j) :
    s.Requeues B now rs s' :=
  ⟨h.judgings.congr hAB, h.frame, h.course⟩

theorem Requeues.trans (h : s.Requeues A now rs s₁) (h' : s₁.Requeues B now rs' s') :
    s.Requeues (fun j => A j ∨ B j) now (rs ++ rs') s' where
  judgings := h.judgings.trans h'.judgings
  frame := by
    rw [h'.frame, h.frame]
  course := h'.course

/-- **One judging** is replaced. -/
theorem OnCourse.requeues_replace (h : s.OnCourse) {j : Judging} (hj : j ∈ s.judgings)
    (hl : j.lifecycle = .claimed) (now : Instant) :
    s.Requeues (· = j) now
      [⟨(JudgingPatch.abandon now).apply j, (NewJudging.replacing j).queued (s.lastJudging + 1)⟩]
      (s.replace j now) where
  judgings := by
    have hreplaces : Requeued.Replaces ⟨(JudgingPatch.abandon now).apply j,
        (NewJudging.replacing j).queued (s.lastJudging + 1)⟩ j now :=
      ⟨Judging.apply_abandon hl (h.shaped j hj) now, rfl⟩
    refine ⟨?held, ?requeued, ?only, List.nodup_singleton _, List.nodup_singleton _, ?fresh, ?mem⟩
    case held =>
      rintro i - rfl
      exact hl
    case requeued =>
      rintro i - rfl
      exact ⟨_, List.mem_singleton_self _, hreplaces⟩
    case only =>
      intro r hr
      rw [List.mem_singleton.mp hr]
      exact ⟨j, hj, rfl, hreplaces⟩
    case fresh =>
      intro r hr i hi
      rw [List.mem_singleton.mp hr]
      exact h.sound.numbered.ne_next hi
    case mem =>
      intro b
      have hother : b ∈ s.judgings → (b.id ≠ j.id ↔ ¬ b = j) := fun hb =>
        not_congr ⟨judging_eq hb hj, congrArg Judging.id⟩
      rw [mem_judgings_replace h.sound.numbered hj, and_congr_right hother]
      simp only [List.mem_singleton, exists_eq_left]
      tauto
  frame := rfl
  course := h.change (.requeue hj (Judging.isClaimed_iff.mpr hl) (h.sound.numbered.owned j hj))

end Store

/-! ## Runs without faults -/

variable {w : World}

/-- **Requeueing** a judging that is held. -/
theorem run_requeue (h : w.store.OnCourse) {j : Judging} (hj : j ∈ w.store.judgings)
    (hl : j.lifecycle = .claimed) (now : Instant) :
    ∃ r s', (requeue j now).run w = (.ok r, { w with store := s' }) ∧
      w.store.Requeues (· = j) now [r] s' := by
  refine ⟨_, _, ?_, h.requeues_replace hj hl now⟩
  obtain ⟨q, hq, hid⟩ := h.sound.numbered.owned j hj
  have hinsert : (Query.insertJudging (.replacing j)).run w.store =
      .ok ((NewJudging.replacing j).queued (w.store.lastJudging + 1),
        w.store.queue (.replacing j)) := by
    have hknown : w.store.submissions.contains (NewJudging.replacing j).submissionId = true :=
      Table.contains_iff.mpr ⟨q, hq, hid⟩
    rw [Query.run, Store.insertJudging_eq, if_pos hknown]
  have hmem : (JudgingPatch.abandon now).apply j ∈
      ({ w with store := w.store.replace j now } : World).store.judgings :=
    (Store.mem_judgings_replace h.sound.numbered hj).mpr (.inr (.inl rfl))
  have hload := run_loadJudging hmem
  rw [requeue, run_bind (run_ask hinsert), run_bind (run_ask rfl), Store.updateJudgings_ofId]
  exact run_bind hload

/-- **Requeueing several judgings** that are held. -/
theorem run_requeueAll (h : w.store.OnCourse) {js : List Judging}
    (hjs : ∀ j ∈ js, j ∈ w.store.judgings ∧ j.lifecycle = .claimed) (hnodup : js.Nodup)
    (now : Instant) :
    ∃ rs s', (requeueAll now js).run w = (.ok rs, { w with store := s' }) ∧
      w.store.Requeues (· ∈ js) now rs s' := by
  induction js generalizing w with
  | nil => exact ⟨[], w.store, rfl, .nil h fun _ _ => List.not_mem_nil⟩
  | cons j rest ih =>
    obtain ⟨hne, hrest⟩ := List.nodup_cons.mp hnodup
    obtain ⟨hj, hl⟩ := hjs j List.mem_cons_self
    obtain ⟨r, s₁, hrun, hfirst⟩ := run_requeue h hj hl now
    have hlater : ∀ i ∈ rest, i ∈ s₁.judgings ∧ i.lifecycle = .claimed := by
      intro i hi
      obtain ⟨hmem, hil⟩ := hjs i (List.mem_cons_of_mem j hi)
      refine ⟨(hfirst.judgings.mem i).mpr (.inl ⟨hmem, ?_⟩), hil⟩
      rintro rfl
      exact hne hi
    obtain ⟨rs, s', hrun', hothers⟩ := ih (w := { w with store := s₁ }) hfirst.course hlater hrest
    refine ⟨r :: rs, s', ?_, (hfirst.trans hothers).congr fun i _ => List.mem_cons.symm⟩
    rw [requeueAll, run_bind hrun, run_bind hrun']
    rfl

/-- **What a judgehost holds** is requeued. -/
theorem run_requeueHeldBy (h : w.store.OnCourse) (hostname : String) (now : Instant) :
    ∃ rs s', (requeueHeldBy hostname now).run w = (.ok rs, { w with store := s' }) ∧
      w.store.Requeues (fun j => j.lifecycle = .claimed ∧ j.server = some hostname) now rs s' := by
  have hheld : ∀ j, j ∈ w.store.judgings.filter
      (JudgingFilter.admits { lifecycle := some .claimed, server := some hostname }) ↔
      j ∈ w.store.judgings ∧ j.lifecycle = .claimed ∧ j.server = some hostname := by
    intro j
    rw [Table.mem_filter]
    simp [JudgingFilter.admits]
  have hnodup : (w.store.judgings.filter
      (JudgingFilter.admits { lifecycle := some .claimed, server := some hostname })).Nodup :=
    (List.Nodup.of_map _ w.store.judgings.nodup_keys).filter _
  obtain ⟨rs, s', hrun, hrequeues⟩ := run_requeueAll h
    (fun j hj => ⟨((hheld j).mp hj).1, ((hheld j).mp hj).2.1⟩) hnodup now
  refine ⟨rs, s', ?_, hrequeues.congr fun j hj => ?_⟩
  · rw [requeueHeldBy, run_bind (run_ask rfl)]
    exact hrun
  · rw [hheld, and_iff_right hj]

/-- **And what any of some judgehosts hold.** -/
theorem run_requeueHeldByAny (h : w.store.OnCourse) (hostnames : List String) (now : Instant) :
    ∃ rs s', (requeueHeldByAny now hostnames).run w = (.ok rs, { w with store := s' }) ∧
      w.store.Requeues
        (fun j => j.lifecycle = .claimed ∧ ∃ hostname ∈ hostnames, j.server = some hostname)
        now rs s' := by
  induction hostnames generalizing w with
  | nil =>
    refine ⟨[], w.store, rfl, .nil h fun j _ hA => ?_⟩
    obtain ⟨-, hostname, hmem, -⟩ := hA
    cases hmem
  | cons hostname rest ih =>
    obtain ⟨rs, s₁, hrun, hfirst⟩ := run_requeueHeldBy h hostname now
    obtain ⟨others, s', hrun', hothers⟩ := ih (w := { w with store := s₁ }) hfirst.course
    refine ⟨rs ++ others, s', ?_, (hfirst.trans hothers).congr fun j _ => ?_⟩
    · rw [requeueHeldByAny, run_bind hrun, run_bind hrun']
      rfl
    · rw [← and_or_left, List.exists_mem_cons_iff]

end JudgeQueue
