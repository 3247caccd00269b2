import JudgeQueue.Proofs.Change.Basic
/-!
# Changes — the rows they leave

Each change is read through the rows that the store holds after it. Where a
judging is queued, its id is one that no row has: ids are given in order,
which `Numbered` states and every change keeps.
-/

namespace JudgeQueue

namespace Store

/-- Ids are given in order, and every judging is one of a submission that
the store has. -/
structure Numbered (s : Store) : Prop where
  judging_le : ∀ j ∈ s.judgings, j.id ≤ s.lastJudging
  rejudging_le : ∀ q ∈ s.rejudgings, q.id ≤ s.lastRejudging
  owned : ∀ j ∈ s.judgings, ∃ r ∈ s.submissions, r.id = j.submissionId

variable {s : Store}

theorem key_judging (j : Judging) : key j = j.id := rfl

/-- One judging an id. -/
theorem judging_eq {i j : Judging} (hi : i ∈ s.judgings) (hj : j ∈ s.judgings) (h : i.id = j.id) :
    i = j :=
  Table.eq_of_key_eq hi hj h

/-- One submission an id. -/
theorem submission_eq {r q : Submission} (hr : r ∈ s.submissions) (hq : q ∈ s.submissions)
    (h : r.id = q.id) : r = q :=
  Table.eq_of_key_eq hr hq h

/-- One rejudging an id. -/
theorem rejudging_eq {r q : Rejudging} (hr : r ∈ s.rejudgings) (hq : q ∈ s.rejudgings)
    (h : r.id = q.id) : r = q :=
  Table.eq_of_key_eq hr hq h

/-! ## Judgings -/

/-- The next id is fresh. -/
theorem Numbered.ne_next (h : s.Numbered) {j : Judging} (hj : j ∈ s.judgings) :
    j.id ≠ s.lastJudging + 1 := by
  have := h.judging_le j hj
  omega

/-- A judging that is queued joins the others. -/
theorem mem_judgings_queue (h : s.Numbered) {new : NewJudging} {b : Judging} :
    b ∈ (s.queue new).judgings ↔ b = new.queued (s.lastJudging + 1) ∨ b ∈ s.judgings :=
  Table.mem_insert_of_fresh fun _ hj => h.ne_next hj

theorem judgings_replace {j : Judging} {now : Instant} :
    (s.replace j now).judgings =
      (s.queue (.replacing j)).judgings.modify j.id (JudgingPatch.abandon now).apply
        (JudgingPatch.abandon now).key_apply := rfl

/-- **A judging that is requeued** is abandoned, its replacement joins, and
no other changes. -/
theorem mem_judgings_replace (h : s.Numbered) {j : Judging} (hj : j ∈ s.judgings) {now : Instant}
    {b : Judging} :
    b ∈ (s.replace j now).judgings ↔
      b = (NewJudging.replacing j).queued (s.lastJudging + 1) ∨
        b = (JudgingPatch.abandon now).apply j ∨ b ∈ s.judgings ∧ b.id ≠ j.id := by
  have hnext : (NewJudging.queued (.replacing j) (s.lastJudging + 1)).id ≠ j.id :=
    fun heq => h.ne_next hj heq.symm
  rw [judgings_replace, Table.mem_modify]
  simp only [mem_judgings_queue h, key_judging]
  constructor
  · rintro (⟨a, rfl | ha, hid, rfl⟩ | ⟨rfl | hb, hid⟩)
    · exact absurd hid hnext
    · exact .inr (.inl (by rw [judging_eq ha hj hid]))
    · exact .inl rfl
    · exact .inr (.inr ⟨hb, hid⟩)
  · rintro (rfl | rfl | ⟨hb, hid⟩)
    · exact .inr ⟨.inl rfl, hnext⟩
    · exact .inl ⟨j, .inr hj, rfl, rfl⟩
    · exact .inr ⟨.inr hb, hid⟩

theorem judgings_rejudge {id : Int} {fullTest : Bool} :
    (s.rejudge id fullTest).judgings =
      (s.judgings.update (fun j => j.submissionId = id) Judging.retired Judging.key_retired).insert
        (NewJudging.queued ⟨id, true, fullTest, none, (s.activeOf id).map Judging.id⟩
          (s.lastJudging + 1)) := rfl

/-- **A submission that is rejudged** gets a fresh active judging, and its
others retire. -/
theorem mem_judgings_rejudge (h : s.Numbered) {id : Int} {fullTest : Bool} {b : Judging} :
    b ∈ (s.rejudge id fullTest).judgings ↔
      b = (NewJudging.queued ⟨id, true, fullTest, none, (s.activeOf id).map Judging.id⟩
          (s.lastJudging + 1)) ∨
        ∃ a ∈ s.judgings, b = if a.submissionId = id then a.retired else a := by
  have hupdate : ∀ b : Judging, b ∈ s.judgings.update (fun j => j.submissionId = id)
      Judging.retired Judging.key_retired ↔
        ∃ a ∈ s.judgings, b = if a.submissionId = id then a.retired else a := by
    intro b
    simp only [Table.mem_update, decide_eq_true_eq]
  rw [judgings_rejudge, Table.mem_insert_of_fresh, hupdate b]
  intro a ha
  obtain ⟨c, hc, rfl⟩ := (hupdate a).mp ha
  have hid : ∀ d : Judging, d.id = c.id → key d ≠ s.lastJudging + 1 :=
    fun d hd heq => h.ne_next hc (hd.symm.trans heq)
  refine hid _ ?_
  split <;> rfl

/-- The active judging that is found is one of the submission. -/
theorem mem_of_activeOf {id : Int} {j : Judging} (h : s.activeOf id = some j) :
    j ∈ s.judgings ∧ j.submissionId = id ∧ j.active = true := by
  have hj := List.find?_some h
  simp only [Bool.and_eq_true, decide_eq_true_eq] at hj
  exact ⟨List.mem_of_find?_eq_some h, hj⟩

/-- A candidate joins the other judgings. -/
theorem mem_judgings_propose (h : s.Numbered) {submissionId rejudgingId : Int} {j : Judging}
    {fullTest : Bool} {b : Judging} :
    b ∈ (s.propose submissionId rejudgingId j fullTest).judgings ↔
      b = (Rejudge.candidate rejudgingId fullTest j).queued (s.lastJudging + 1) ∨
        b ∈ s.judgings :=
  Table.mem_insert_of_fresh fun _ hj => h.ne_next hj

/-- A rejudging holds what one of its candidates is of. -/
theorem holds_iff {id submissionId : Int} :
    s.holds id submissionId = true ↔
      ∃ j ∈ s.judgings, j.submissionId = submissionId ∧ j.rejudgingId = some id := by
  simp [holds]

theorem judgings_applyRejudging {id : Int} {now : Instant} {operator : Option Int} :
    (s.applyRejudging id now operator).judgings =
      s.judgings.update (fun j => s.holds id j.submissionId) (.settled id)
        (Judging.key_settled id) := rfl

/-- **After a rejudging is applied** the judgings of the submissions it holds
are settled. -/
theorem mem_judgings_applyRejudging {id : Int} {now : Instant} {operator : Option Int}
    {b : Judging} :
    b ∈ (s.applyRejudging id now operator).judgings ↔
      ∃ a ∈ s.judgings, b = if s.holds id a.submissionId then a.settled id else a := by
  rw [judgings_applyRejudging, Table.mem_update]

theorem judgings_cancelRejudging {id : Int} {now : Instant} {operator : Option Int} :
    (s.cancelRejudging id now operator).judgings =
      (s.judgings.keep fun j => !(j.rejudgingId = some id && j.isQueued)).update
        (fun j => j.rejudgingId = some id && j.isClaimed) (JudgingPatch.abandon now).apply
        (JudgingPatch.abandon now).key_apply := rfl

/-- **After a rejudging is cancelled** its claimed candidates are abandoned,
and of the others those are left that have ended. -/
theorem mem_judgings_cancelRejudging {id : Int} {now : Instant} {operator : Option Int}
    {b : Judging} :
    b ∈ (s.cancelRejudging id now operator).judgings ↔
      (∃ a ∈ s.judgings, a.rejudgingId = some id ∧ a.lifecycle = .claimed ∧
        b = (JudgingPatch.abandon now).apply a) ∨
        b ∈ s.judgings ∧ (b.rejudgingId = some id → b.lifecycle = .finalized) := by
  rw [judgings_cancelRejudging, Table.mem_update]
  simp only [Table.mem_keep, Judging.isQueued, Judging.isClaimed, Bool.not_eq_true',
    Bool.and_eq_true, decide_eq_true_eq, Bool.and_eq_false_imp, decide_eq_false_iff_not]
  constructor
  · rintro ⟨a, ⟨ha, hqueued⟩, rfl⟩
    split
    · next hc => exact .inl ⟨a, ha, hc.1, hc.2, rfl⟩
    · next hc =>
      refine .inr ⟨ha, fun hid => ?_⟩
      have hq := hqueued hid
      cases hl : a.lifecycle with
      | queued => exact absurd hl hq
      | claimed => exact absurd ⟨hid, hl⟩ hc
      | finalized => rfl
  · rintro (⟨a, ha, hid, hl, rfl⟩ | ⟨hb, hfin⟩)
    · refine ⟨a, ⟨ha, fun _ hq => ?_⟩, (if_pos ⟨hid, hl⟩).symm⟩
      rw [hl] at hq
      cases hq
    · refine ⟨b, ⟨hb, fun hid hq => ?_⟩, (if_neg fun hc => ?_).symm⟩
      · rw [hfin hid] at hq
        cases hq
      · rw [hfin hc.1] at hc
        cases hc.2

/-! ## Submissions and rejudgings -/

theorem mem_submissions_propose {submissionId rejudgingId : Int} {j : Judging} {fullTest : Bool}
    {b : Submission} :
    b ∈ (s.propose submissionId rejudgingId j fullTest).submissions ↔
      (∃ r ∈ s.submissions, r.id = submissionId ∧ b = r.moved (some rejudgingId)) ∨
        b ∈ s.submissions ∧ b.id ≠ submissionId := by
  change b ∈ s.submissions.modify submissionId (.moved (some rejudgingId))
    (Submission.key_moved (some rejudgingId)) ↔ _
  rw [Table.mem_modify]
  rfl

theorem mem_release {id : Int} {b : Submission} :
    b ∈ s.release id ↔
      ∃ r ∈ s.submissions, b = if r.rejudgingId = some id then r.moved none else r := by
  rw [release, Table.mem_update]
  simp only [decide_eq_true_eq]

theorem mem_decided {id : Int} {applied : Bool} {now : Instant} {operator : Option Int}
    {b : Rejudging} :
    b ∈ s.decided id applied now operator ↔
      (∃ q ∈ s.rejudgings, q.id = id ∧ b = q.decide applied now operator) ∨
        b ∈ s.rejudgings ∧ b.id ≠ id := by
  rw [decided, Table.mem_modify]
  rfl

theorem mem_rejudgings_insertRejudging (h : s.Numbered) {new : NewRejudging} {now : Instant}
    {b : Rejudging} :
    b ∈ (s.insertRejudging new now).2.rejudgings ↔
      b = new.opened (s.lastRejudging + 1) now ∨ b ∈ s.rejudgings := by
  refine Table.mem_insert_of_fresh fun q hq => ?_
  have hle := h.rejudging_le q hq
  have hne : q.id ≠ s.lastRejudging + 1 := by omega
  exact hne

/-! ## Rejudgings that are decided -/

section Decide

variable {q p : Rejudging} {applied : Bool} {now : Instant} {operator : Option Int}

/-- A rejudging that is open after another is decided was so before. -/
theorem mem_of_mem_decided (hp : p ∈ s.decided q.id applied now operator)
    (hopen : p.applied = none) : p ∈ s.rejudgings ∧ p.id ≠ q.id := by
  rcases mem_decided.mp hp with ⟨p', -, -, rfl⟩ | hp
  · cases hopen
  · exact hp

/-- A rejudging is another one than the one that is decided, or that one. -/
theorem mem_or_eq_of_mem_decided (hq : q ∈ s.rejudgings)
    (hp : p ∈ s.decided q.id applied now operator) :
    p ∈ s.rejudgings ∧ p.id ≠ q.id ∨ p = q.decide applied now operator := by
  rcases mem_decided.mp hp with ⟨p', hp', hid, rfl⟩ | hp
  · rw [rejudging_eq hp' hq hid]
    exact .inr rfl
  · exact .inl hp

/-- Deciding a rejudging leaves one of every id. -/
theorem exists_mem_decided (hp : p ∈ s.rejudgings) :
    ∃ p' ∈ s.decided q.id applied now operator, p'.id = p.id := by
  by_cases heq : p.id = q.id
  · exact ⟨p.decide applied now operator, mem_decided.mpr (.inl ⟨p, hp, heq, rfl⟩), rfl⟩
  · exact ⟨p, mem_decided.mpr (.inr ⟨hp, heq⟩), rfl⟩

/-- A submission that is still in a rejudging has not been let go. -/
theorem mem_of_mem_release {r : Submission} {id id' : Int} (hr : r ∈ s.release id)
    (hid : r.rejudgingId = some id') : r ∈ s.submissions ∧ id' ≠ id := by
  obtain ⟨t, ht, rfl⟩ := mem_release.mp hr
  split at hid
  · cases hid
  · next hne =>
    rw [if_neg hne]
    refine ⟨ht, fun heq => hne ?_⟩
    rw [hid, heq]

/-- Submissions of other rejudgings are not let go. -/
theorem mem_release_of_ne {r : Submission} {id : Int} (hr : r ∈ s.submissions)
    (hid : r.rejudgingId ≠ some id) : r ∈ s.release id :=
  mem_release.mpr ⟨r, hr, (if_neg hid).symm⟩

/-- Letting submissions go leaves one of every id. -/
theorem exists_mem_release {r : Submission} (hr : r ∈ s.submissions) (id : Int) :
    ∃ r' ∈ s.release id, r'.id = r.id := by
  refine ⟨_, mem_release.mpr ⟨r, hr, rfl⟩, ?_⟩
  split <;> rfl

end Decide

end Store

end JudgeQueue
