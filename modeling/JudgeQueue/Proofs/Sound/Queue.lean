import JudgeQueue.Proofs.Sound.Moves
/-!
# Sound stores — judgings that are queued

A judging is queued for a submission that has none, in the place of one that
its judgehost lost, in the place of all that a submission had, or beside the
active one as a candidate. In each case one judging is new, and the others
change at most where they stand.
-/

namespace JudgeQueue

/-- A judging that retires agrees with itself. -/
theorem Judging.Ordered.retired {j : Judging} (h : j.Ordered) : j.retired.Ordered where
  ended hl := (h.ended hl).imp_right fun hr => ⟨rfl, hr.2⟩
  counted hc := by cases hc

namespace Store

/-- One judging is queued, and the others change where they stand. -/
structure Queues (s s' : Store) (new : Judging) (f : Judging → Judging) : Prop where
  mem_iff : ∀ b, b ∈ s'.judgings ↔ b = new ∨ ∃ a ∈ s.judgings, b = f a
  id_new : new.id = s.lastJudging + 1
  lifecycle_new : new.lifecycle = .queued
  counted_new : new.counted = false
  owned_new : ∃ r ∈ s.submissions, r.id = new.submissionId
  id_eq : ∀ a, (f a).id = a.id
  submissionId_eq : ∀ a, (f a).submissionId = a.submissionId
  lastJudging : s'.lastJudging = s.lastJudging + 1
  lastRejudging : s'.lastRejudging = s.lastRejudging
  rejudgings : s'.rejudgings = s.rejudgings
  runs : s'.runs = s.runs

variable {s s' : Store}

namespace Queues

variable {new : Judging} {f : Judging → Judging} (h : s.Queues s' new f)

include h

theorem mem_new : new ∈ s'.judgings :=
  (h.mem_iff new).mpr (.inl rfl)

theorem mem_old {a : Judging} (ha : a ∈ s.judgings) : f a ∈ s'.judgings :=
  (h.mem_iff (f a)).mpr (.inr ⟨a, ha, rfl⟩)

theorem numbered (hs : s.Numbered)
    (hsub : ∀ r ∈ s.submissions, ∃ r' ∈ s'.submissions, r'.id = r.id) : s'.Numbered := by
  refine ⟨?judging_le, ?rejudging_le, ?owned⟩
  case judging_le =>
    intro b hb
    rw [h.lastJudging]
    rcases (h.mem_iff b).mp hb with rfl | ⟨a, ha, rfl⟩
    · have hid := h.id_new
      omega
    · have hle := hs.judging_le a ha
      rw [h.id_eq]
      omega
  case rejudging_le =>
    intro q hq
    rw [h.rejudgings] at hq
    rw [h.lastRejudging]
    exact hs.rejudging_le q hq
  case owned =>
    intro b hb
    have howned : ∃ r ∈ s.submissions, r.id = b.submissionId := by
      rcases (h.mem_iff b).mp hb with rfl | ⟨a, ha, rfl⟩
      · exact h.owned_new
      · rw [h.submissionId_eq]
        exact hs.owned a ha
    obtain ⟨r, hr, hid⟩ := howned
    obtain ⟨r', hr', hid'⟩ := hsub r hr
    exact ⟨r', hr', hid'.trans hid⟩

theorem ordered (hs : ∀ a ∈ s.judgings, (f a).Ordered) : ∀ b ∈ s'.judgings, b.Ordered := by
  intro b hb
  rcases (h.mem_iff b).mp hb with rfl | ⟨a, ha, rfl⟩
  · refine ⟨fun hl => ?_, fun hc => ?_⟩
    · rw [h.lifecycle_new] at hl
      cases hl
    · rw [h.counted_new] at hc
      cases hc
  · exact hs a ha

/-- **Authority passes to the new judging** where all others of its
submission lose it. -/
theorem authority_of_active (ha : s.Authority) (hnew : new.active = true)
    (hother : ∀ a ∈ s.judgings, a.submissionId ≠ new.submissionId → (f a).active = a.active)
    (hsame : ∀ a ∈ s.judgings, a.submissionId = new.submissionId → (f a).active = false) :
    s'.Authority := by
  have hrest : ∀ a ∈ s.judgings, (f a).active = true →
      a.submissionId ≠ new.submissionId ∧ a.active = true := by
    intro a hmem hact
    by_cases hsub : a.submissionId = new.submissionId
    · rw [hsame a hmem hsub] at hact
      cases hact
    · exact ⟨hsub, (hother a hmem hsub).symm.trans hact⟩
  refine ⟨?exists_active, ?active_eq⟩
  case exists_active =>
    intro b hb
    by_cases hsub : b.submissionId = new.submissionId
    · exact ⟨new, h.mem_new, hsub.symm, hnew⟩
    · rcases (h.mem_iff b).mp hb with rfl | ⟨a, hmem, rfl⟩
      · exact absurd rfl hsub
      · rw [h.submissionId_eq] at hsub ⊢
        obtain ⟨c, hc, hcsub, hcact⟩ := ha.exists_active a hmem
        refine ⟨f c, h.mem_old hc, (h.submissionId_eq c).trans hcsub, ?_⟩
        rw [hother c hc (hcsub ▸ hsub), hcact]
  case active_eq =>
    intro b hb c hc hsub hact hact'
    rcases (h.mem_iff b).mp hb with rfl | ⟨a, hmem, rfl⟩ <;>
      rcases (h.mem_iff c).mp hc with rfl | ⟨d, hmem', rfl⟩
    · rfl
    · rw [h.submissionId_eq] at hsub
      exact absurd hsub.symm (hrest d hmem' hact').1
    · rw [h.submissionId_eq] at hsub
      exact absurd hsub (hrest a hmem hact).1
    · rw [h.submissionId_eq, h.submissionId_eq] at hsub
      rw [ha.active_eq a hmem d hmem' hsub (hrest a hmem hact).2 (hrest d hmem' hact').2]

/-- **Authority stays where it was** if the new judging joins others of its
submission without it. -/
theorem authority_of_inactive (ha : s.Authority) (hnew : new.active = false)
    (hkeep : ∀ a ∈ s.judgings, (f a).active = a.active)
    (hone : ∃ a ∈ s.judgings, a.submissionId = new.submissionId) : s'.Authority := by
  have hactive : ∀ b ∈ s'.judgings, b.active = true →
      ∃ a ∈ s.judgings, b = f a ∧ a.active = true := by
    intro b hb hact
    rcases (h.mem_iff b).mp hb with rfl | ⟨a, hmem, rfl⟩
    · rw [hnew] at hact
      cases hact
    · exact ⟨a, hmem, rfl, (hkeep a hmem).symm.trans hact⟩
  have howner : ∀ b ∈ s'.judgings, ∃ a ∈ s.judgings, a.submissionId = b.submissionId := by
    intro b hb
    rcases (h.mem_iff b).mp hb with rfl | ⟨a, hmem, rfl⟩
    · exact hone
    · exact ⟨a, hmem, (h.submissionId_eq a).symm⟩
  refine ⟨?exists_active, ?active_eq⟩
  case exists_active =>
    intro b hb
    obtain ⟨a, hmem, hsub⟩ := howner b hb
    obtain ⟨c, hc, hcsub, hcact⟩ := ha.exists_active a hmem
    exact ⟨f c, h.mem_old hc, (h.submissionId_eq c).trans (hcsub.trans hsub),
      (hkeep c hc).trans hcact⟩
  case active_eq =>
    intro b hb c hc hsub hact hact'
    obtain ⟨a, hmem, rfl, ha'⟩ := hactive b hb hact
    obtain ⟨d, hmem', rfl, hd'⟩ := hactive c hc hact'
    rw [h.submissionId_eq, h.submissionId_eq] at hsub
    rw [ha.active_eq a hmem d hmem' hsub ha' hd']

/-- What is stood in for stays so, and no other row takes its id. -/
theorem isPrevious (hs : s.Numbered) {a p j : Judging} (hp : s.IsPrevious a p)
    (hid : j.id = a.id ∨ j = new) (hsub : j.submissionId = a.submissionId)
    (hprev : j.previousJudgingId = a.previousJudgingId) : s'.IsPrevious j (f p) := by
  refine hp.of_mem (h.mem_old hp.1) (h.id_eq p) (h.submissionId_eq p) ?_ hsub hprev
  rw [h.id_eq]
  rcases hid with hid | rfl
  · rw [hid]
    exact hp.2.1
  · rw [h.id_new]
    exact hs.ne_next hp.1

/-- **A judging outside of any rejudging** leaves the candidates as they
were. -/
theorem membership (hs : s.Numbered) (hm : s.Membership) (hsub : s'.submissions = s.submissions)
    (hnew : new.rejudgingId = none) (hid : ∀ a, (f a).rejudgingId = a.rejudgingId)
    (hprev : ∀ a, (f a).previousJudgingId = a.previousJudgingId)
    (hl : ∀ a, (f a).lifecycle = a.lifecycle)
    (hact : ∀ a, a.active = false → (f a).active = false) : s'.Membership := by
  -- a candidate of the store after the change was one before it
  have hback : ∀ b ∈ s'.judgings, ∀ id, b.rejudgingId = some id →
      ∃ a ∈ s.judgings, b = f a ∧ a.rejudgingId = some id := by
    intro b hb id hbid
    rcases (h.mem_iff b).mp hb with rfl | ⟨a, ha, rfl⟩
    · rw [hnew] at hbid
      cases hbid
    · exact ⟨a, ha, rfl, (hid a).symm.trans hbid⟩
  refine ⟨?exists_rejudging, ?candidate, ?candidate_eq, ?decided⟩
  case exists_rejudging =>
    intro b hb id hbid
    obtain ⟨a, ha, -, haid⟩ := hback b hb id hbid
    rw [h.rejudgings]
    exact hm.exists_rejudging a ha id haid
  case candidate =>
    intro q hq hopen b hb hbid
    rw [h.rejudgings] at hq
    obtain ⟨a, ha, rfl, haid⟩ := hback b hb q.id hbid
    obtain ⟨hinactive, ⟨p, hp⟩, hr⟩ := hm.candidate q hq hopen a ha haid
    refine ⟨hact a hinactive, ⟨f p, ?_⟩, ?_⟩
    · exact h.isPrevious hs hp (.inl (h.id_eq a)) (h.submissionId_eq a) (hprev a)
    · rwa [hsub, h.submissionId_eq]
  case candidate_eq =>
    intro q hq hopen b hb c hc hbid hcid hbc
    rw [h.rejudgings] at hq
    obtain ⟨a, ha, rfl, haid⟩ := hback b hb q.id hbid
    obtain ⟨d, hd, rfl, hdid⟩ := hback c hc q.id hcid
    rw [h.submissionId_eq, h.submissionId_eq] at hbc
    rw [hm.candidate_eq q hq hopen a ha d hd haid hdid hbc]
  case decided =>
    intro q hq applied happ b hb hbid
    rw [h.rejudgings] at hq
    obtain ⟨a, ha, rfl, haid⟩ := hback b hb q.id hbid
    obtain ⟨hfin, hinactive⟩ := hm.decided q hq applied happ a ha haid
    exact ⟨(hl a).trans hfin, fun hf => hact a (hinactive hf)⟩

/-- Submissions keep their candidates. -/
theorem enrolled (he : s.Enrolled) (hsub : s'.submissions = s.submissions)
    (hid : ∀ a, (f a).rejudgingId = a.rejudgingId) : s'.Enrolled := by
  intro r hr id hrid
  rw [hsub] at hr
  obtain ⟨q, hq, hqid, hopen, hcontest, a, ha, hasub, haid⟩ := he r hr id hrid
  rw [h.rejudgings]
  exact ⟨q, hq, hqid, hopen, hcontest, f a, h.mem_old ha, (h.submissionId_eq a).trans hasub,
    (hid a).trans haid⟩

end Queues

/-! ## Submissions that are queued for the first time -/

/-- A judging joins the others. -/
theorem queues_queue (h : s.Numbered) {new : NewJudging}
    (howned : ∃ r ∈ s.submissions, r.id = new.submissionId) :
    s.Queues (s.queue new) (new.queued (s.lastJudging + 1)) id where
  mem_iff b := by
    rw [mem_judgings_queue h]
    simp
  id_new := rfl
  lifecycle_new := rfl
  counted_new := rfl
  owned_new := howned
  id_eq _ := rfl
  submissionId_eq _ := rfl
  lastJudging := rfl
  lastRejudging := rfl
  rejudgings := rfl
  runs := rfl

/-- **A submission without an active judging** gets one. -/
theorem Sound.enqueue (h : s.Sound) {r : Submission} (hr : r ∈ s.submissions)
    (hidle : ∀ j ∈ s.judgings, j.submissionId = r.id → j.active = false) (fullTest : Bool) :
    (s.queue ⟨r.id, true, fullTest, none, none⟩).Sound := by
  have hq : s.Queues (s.queue ⟨r.id, true, fullTest, none, none⟩) _ id :=
    queues_queue h.numbered ⟨r, hr, rfl⟩
  exact {
    numbered := hq.numbered h.numbered fun r hr => ⟨r, hr, rfl⟩
    ordered := hq.ordered h.ordered
    authority := hq.authority_of_active h.authority rfl (fun _ _ _ => rfl) hidle
    membership := hq.membership h.numbered h.membership rfl rfl (fun _ => rfl) (fun _ => rfl)
      (fun _ => rfl) fun _ => id
    runs := h.runs }

/-! ## Submissions that are rejudged -/

/-- The judgings of a submission retire, and a fresh one joins. -/
theorem queues_rejudge (h : s.Numbered) {r : Submission} (hr : r ∈ s.submissions)
    (fullTest : Bool) :
    s.Queues (s.rejudge r.id fullTest)
      (NewJudging.queued ⟨r.id, true, fullTest, none, (s.activeOf r.id).map Judging.id⟩
        (s.lastJudging + 1))
      (fun a => if a.submissionId = r.id then a.retired else a) where
  mem_iff _ := mem_judgings_rejudge h
  id_new := rfl
  lifecycle_new := rfl
  counted_new := rfl
  owned_new := ⟨r, hr, rfl⟩
  id_eq _ := by split <;> rfl
  submissionId_eq _ := by split <;> rfl
  lastJudging := rfl
  lastRejudging := rfl
  rejudgings := rfl
  runs := rfl

/-- **Rejudging a submission** passes authority to its fresh judging. -/
theorem Sound.rejudge (h : s.Sound) {r : Submission} (hr : r ∈ s.submissions) (fullTest : Bool) :
    (s.rejudge r.id fullTest).Sound := by
  have hq := queues_rejudge h.numbered hr fullTest
  refine ⟨?numbered, ?ordered, ?authority, ?membership, h.runs⟩
  case numbered => exact hq.numbered h.numbered fun r hr => ⟨r, hr, rfl⟩
  case ordered =>
    refine hq.ordered fun a ha => ?_
    split
    · exact (h.ordered a ha).retired
    · exact h.ordered a ha
  case authority =>
    refine hq.authority_of_active h.authority rfl (fun a _ hne => ?_) (fun a _ heq => ?_)
    · have hne : a.submissionId ≠ r.id := hne
      rw [if_neg hne]
    · have heq : a.submissionId = r.id := heq
      rw [if_pos heq]
      rfl
  case membership =>
    -- a judging that retires keeps all that candidates are known by
    refine hq.membership h.numbered h.membership rfl rfl (fun a => ?_) (fun a => ?_)
      (fun a => ?_) (fun a hf => ?_)
    · split <;> rfl
    · split <;> rfl
    · split <;> rfl
    · split
      · rfl
      · exact hf

/-! ## Judgings that are requeued -/

/-- A claimed judging is abandoned, and its replacement joins. -/
theorem queues_replace (h : s.Numbered) {j : Judging} (hj : j ∈ s.judgings) (now : Instant) :
    s.Queues (s.replace j now) ((NewJudging.replacing j).queued (s.lastJudging + 1))
      (fun a => if a.id = j.id then (JudgingPatch.abandon now).apply a else a) where
  mem_iff b := by
    rw [mem_judgings_replace h hj]
    refine or_congr_right ⟨?_, ?_⟩
    · rintro (rfl | ⟨hb, hne⟩)
      · exact ⟨j, hj, (if_pos rfl).symm⟩
      · exact ⟨b, hb, (if_neg hne).symm⟩
    · rintro ⟨a, ha, rfl⟩
      by_cases hid : a.id = j.id
      · rw [if_pos hid, judging_eq ha hj hid]
        exact .inl rfl
      · rw [if_neg hid]
        exact .inr ⟨ha, hid⟩
  id_new := rfl
  lifecycle_new := rfl
  counted_new := rfl
  owned_new := h.owned j hj
  id_eq _ := by split <;> rfl
  submissionId_eq _ := by split <;> rfl
  lastJudging := rfl
  lastRejudging := rfl
  rejudgings := rfl
  runs := rfl

section Requeue

variable {j : Judging} (h : s.Sound) (hj : j ∈ s.judgings)

include h hj

/-- An abandoned judging agrees with itself, since it was not counted. -/
theorem Sound.ordered_abandon (hl : j.lifecycle = .claimed) (now : Instant) :
    ((JudgingPatch.abandon now).apply j).Ordered where
  ended _ := .inr ⟨rfl, rfl⟩
  counted hc := by
    have hcounted := h.counted_of_not_finalized hj (by rw [hl]; decide)
    change j.counted = true at hc
    rw [hcounted] at hc
    cases hc

/-- The replacement is active exactly if the judging was. -/
theorem Sound.authority_replace (now : Instant) : (s.replace j now).Authority := by
  have hq := queues_replace h.numbered hj now
  cases ha : j.active with
  | true =>
    refine hq.authority_of_active h.authority ha (fun a hmem hne => ?_) (fun a hmem heq => ?_)
    · have hne : a.submissionId ≠ j.submissionId := hne
      have hid : a.id ≠ j.id := fun hid =>
        hne (congrArg Judging.submissionId (judging_eq hmem hj hid))
      rw [if_neg hid]
    · by_cases hid : a.id = j.id
      · rw [if_pos hid]
        rfl
      · -- besides the judging itself none of its submission is active
        rw [if_neg hid]
        by_contra hact
        have hact : a.active = true := by simpa using hact
        exact hid (congrArg Judging.id (h.authority.active_eq a hmem j hj heq hact ha))
  | false =>
    refine hq.authority_of_inactive h.authority ha (fun a hmem => ?_) ⟨j, hj, rfl⟩
    by_cases hid : a.id = j.id
    · rw [if_pos hid, judging_eq hmem hj hid, ha]
      rfl
    · rw [if_neg hid]

/-- A candidate of the store after a judging is requeued was one before, or
has taken over the place of that judging. -/
theorem Sound.candidate_replace {now : Instant} {b : Judging} {id : Int}
    (hb : b ∈ (s.replace j now).judgings) (hid : b.rejudgingId = some id) :
    b ∈ s.judgings ∧ b.id ≠ j.id ∨
      b = (NewJudging.replacing j).queued (s.lastJudging + 1) ∧ j.rejudgingId = some id := by
  rcases (mem_judgings_replace h.numbered hj).mp hb with rfl | rfl | hb
  · exact .inr ⟨rfl, hid⟩
  · cases hid
  · exact .inl hb

/-- **A replacement takes over the candidacy of the judging that it stands
for**, which leaves the rejudging. -/
theorem Sound.membership_replace (hl : j.lifecycle = .claimed) (now : Instant) :
    (s.replace j now).Membership := by
  have hq := queues_replace h.numbered hj now
  have hm := h.membership
  refine ⟨?exists_rejudging, ?candidate, ?candidate_eq, ?decided⟩
  case exists_rejudging =>
    intro b hb id hbid
    rcases h.candidate_replace hj hb hbid with ⟨hb, -⟩ | ⟨-, hid⟩
    · exact hm.exists_rejudging b hb id hbid
    · exact hm.exists_rejudging j hj id hid
  case candidate =>
    intro q hq' hopen b hb hbid
    rcases h.candidate_replace hj hb hbid with ⟨hb, -⟩ | ⟨rfl, hid⟩
    · obtain ⟨hact, ⟨p, hp⟩, hr⟩ := hm.candidate q hq' hopen b hb hbid
      exact ⟨hact, ⟨_, hq.isPrevious h.numbered hp (.inl rfl) rfl rfl⟩, hr⟩
    · obtain ⟨hact, ⟨p, hp⟩, hr⟩ := hm.candidate q hq' hopen j hj hid
      exact ⟨hact, ⟨_, hq.isPrevious h.numbered hp (.inr rfl) rfl rfl⟩, hr⟩
  case candidate_eq =>
    intro q hq' hopen b hb c hc hbid hcid hbc
    rcases h.candidate_replace hj hb hbid with ⟨hb, hbne⟩ | ⟨rfl, hid⟩ <;>
      rcases h.candidate_replace hj hc hcid with ⟨hc, hcne⟩ | ⟨rfl, hid'⟩
    · exact hm.candidate_eq q hq' hopen b hb c hc hbid hcid hbc
    · exact absurd (congrArg Judging.id (hm.candidate_eq q hq' hopen b hb j hj hbid hid' hbc)) hbne
    · exact absurd (congrArg Judging.id (hm.candidate_eq q hq' hopen j hj c hc hid hcid hbc)).symm
        hcne
    · rfl
  case decided =>
    intro q hq' applied happ b hb hbid
    rcases h.candidate_replace hj hb hbid with ⟨hb, -⟩ | ⟨rfl, hid⟩
    · exact hm.decided q hq' applied happ b hb hbid
    · -- a claimed judging is in no rejudging that is decided
      have hfin := (hm.decided q hq' applied happ j hj hid).1
      rw [hl] at hfin
      cases hfin

/-- Or it takes over the place that a submission knows it by. -/
theorem Sound.enrolled_replace (he : s.Enrolled) (now : Instant) :
    (s.replace j now).Enrolled := by
  intro r hr id hrid
  obtain ⟨q, hq, hqid, hopen, hcontest, a, ha, hasub, haid⟩ := he r hr id hrid
  refine ⟨q, hq, hqid, hopen, hcontest, ?_⟩
  -- the candidate of the submission is the judging, or was not touched
  by_cases heq : a.id = j.id
  · have haj := judging_eq ha hj heq
    subst haj
    exact ⟨_, (queues_replace h.numbered hj now).mem_new, hasub, haid⟩
  · exact ⟨a, (mem_judgings_replace h.numbered hj).mpr (.inr (.inr ⟨ha, heq⟩)), hasub, haid⟩

/-- **Requeueing a claimed judging** leaves the store sound. -/
theorem Sound.requeue (hl : j.lifecycle = .claimed) (now : Instant) : (s.replace j now).Sound where
  numbered := (queues_replace h.numbered hj now).numbered h.numbered fun r hr => ⟨r, hr, rfl⟩
  ordered := by
    refine (queues_replace h.numbered hj now).ordered fun a ha => ?_
    by_cases hid : a.id = j.id
    · rw [if_pos hid, judging_eq ha hj hid]
      exact h.ordered_abandon hj hl now
    · rw [if_neg hid]
      exact h.ordered a ha
  authority := h.authority_replace hj now
  membership := h.membership_replace hj hl now
  runs := h.runs

end Requeue

end Store

end JudgeQueue
