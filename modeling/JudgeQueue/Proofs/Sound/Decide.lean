import JudgeQueue.Proofs.Sound.Queue
/-!
# Sound stores — rejudgings that are decided

Applying a rejudging passes the authority over each of its submissions to the
candidate, of which there is one. Cancelling it takes candidates away, none
of which speaks for its submission or is what another candidate stands in
for. Either way the submissions are free again and no candidate of another
rejudging is touched.
-/

namespace JudgeQueue

namespace Judging

variable {j : Judging} {id : Int}

/-- A settled judging is active and counted exactly if it is a candidate. -/
theorem Ordered.settled (h : j.Ordered)
    (hdone : j.rejudgingId = some id → j.lifecycle = .finalized) : (j.settled id).Ordered where
  ended hl := by
    refine (h.ended hl).imp_right fun hr => ⟨?_, hr.2⟩
    have hne : j.rejudgingId ≠ some id := by
      rw [hr.2]
      exact fun hid => by cases hid
    exact decide_eq_false hne
  counted hc := ⟨hc, hdone (of_decide_eq_true hc)⟩

end Judging

namespace Store

variable {s : Store} {q : Rejudging} {now : Instant} {operator : Option Int}

section Cancel

variable (h : s.Sound) (hq : q ∈ s.rejudgings) (hopen : q.applied = none)

/-! ## Cancelling -/

/-- A judging outside of a rejudging is not touched when it is cancelled. -/
theorem mem_judgings_cancel_of_ne {j : Judging} {id : Int} (hj : j ∈ s.judgings)
    (hid : j.rejudgingId ≠ some id) : j ∈ (s.cancelRejudging id now operator).judgings :=
  mem_judgings_cancelRejudging.mpr (.inr ⟨hj, fun heq => absurd heq hid⟩)

/-- Whatever is in a rejudging after another is cancelled was so before. -/
theorem mem_of_mem_cancel {b : Judging} {id id' : Int}
    (hb : b ∈ (s.cancelRejudging id now operator).judgings) (hid : b.rejudgingId = some id') :
    b ∈ s.judgings ∧ (b.rejudgingId = some id → b.lifecycle = .finalized) := by
  rcases mem_judgings_cancelRejudging.mp hb with ⟨a, -, -, -, rfl⟩ | hb
  · cases hid
  · exact hb

include h hq hopen

/-- **The active judgings are the same** after a rejudging is cancelled. -/
theorem Sound.mem_cancel_of_active {j : Judging} (hj : j ∈ s.judgings) (ha : j.active = true) :
    j ∈ (s.cancelRejudging q.id now operator).judgings := by
  refine mem_judgings_cancel_of_ne hj fun hid => ?_
  rw [(h.membership.candidate q hq hopen j hj hid).1] at ha
  cases ha

theorem Sound.authority_cancel : (s.cancelRejudging q.id now operator).Authority := by
  have hown : ∀ b ∈ (s.cancelRejudging q.id now operator).judgings,
      ∃ a ∈ s.judgings, a.submissionId = b.submissionId := by
    intro b hb
    rcases mem_judgings_cancelRejudging.mp hb with ⟨a, ha, -, -, rfl⟩ | ⟨hb, -⟩
    · exact ⟨a, ha, rfl⟩
    · exact ⟨b, hb, rfl⟩
  have hback : ∀ b ∈ (s.cancelRejudging q.id now operator).judgings, b.active = true →
      b ∈ s.judgings := by
    intro b hb hact
    rcases mem_judgings_cancelRejudging.mp hb with ⟨a, -, -, -, rfl⟩ | ⟨hb, -⟩
    · cases hact
    · exact hb
  refine ⟨?exists_active, ?active_eq⟩
  case exists_active =>
    intro b hb
    obtain ⟨a, ha, hab⟩ := hown b hb
    obtain ⟨c, hc, hca, hact⟩ := h.authority.exists_active a ha
    exact ⟨c, h.mem_cancel_of_active hq hopen hc hact, hca.trans hab, hact⟩
  case active_eq =>
    intro b hb c hc hsub hact hact'
    exact h.authority.active_eq b (hback b hb hact) c (hback c hc hact') hsub hact hact'

theorem Sound.membership_cancel : (s.cancelRejudging q.id now operator).Membership := by
  have hm := h.membership
  refine ⟨?exists_rejudging, ?candidate, ?candidate_eq, ?decided⟩
  case exists_rejudging =>
    intro b hb id hbid
    obtain ⟨p, hp, rfl⟩ := hm.exists_rejudging b (mem_of_mem_cancel hb hbid).1 id hbid
    exact exists_mem_decided hp
  case candidate =>
    intro p hp hpopen b hb hbid
    obtain ⟨hp, hpq⟩ := mem_of_mem_decided hp hpopen
    have hb := (mem_of_mem_cancel hb hbid).1
    obtain ⟨hact, ⟨i, hi⟩, r, hr, hrb, hrid⟩ := hm.candidate p hp hpopen b hb hbid
    -- what a candidate stands in for is not taken away with another rejudging
    have hine : i.rejudgingId ≠ some q.id :=
      h.not_candidate_of_isPrevious hp hq hpopen hopen hb hbid hi
    refine ⟨hact, ⟨i, hi.of_mem (mem_judgings_cancel_of_ne hi.1 hine) rfl rfl hi.2.1 rfl rfl⟩, r,
      mem_release_of_ne hr ?_, hrb, hrid⟩
    rw [hrid]
    exact fun heq => hpq (Option.some.inj heq)
  case candidate_eq =>
    intro p hp hpopen b hb c hc hbid hcid hbc
    exact hm.candidate_eq p (mem_of_mem_decided hp hpopen).1 hpopen
      b (mem_of_mem_cancel hb hbid).1 c (mem_of_mem_cancel hc hcid).1 hbid hcid hbc
  case decided =>
    intro p hp applied happ b hb hbid
    obtain ⟨hb, hfin⟩ := mem_of_mem_cancel hb hbid
    rcases mem_or_eq_of_mem_decided hq hp with ⟨hp, -⟩ | rfl
    · exact hm.decided p hp applied happ b hb hbid
    · exact ⟨hfin hbid, fun _ => (hm.candidate q hq hopen b hb hbid).1⟩

omit h hq hopen in
/-- The submissions that are not let go keep their candidates. -/
theorem enrolled_cancel (he : s.Enrolled) (id : Int) (now : Instant) (operator : Option Int) :
    (s.cancelRejudging id now operator).Enrolled := by
  intro r hr id' hrid
  obtain ⟨hr, hne⟩ := mem_of_mem_release hr hrid
  obtain ⟨p, hp, hpid, hpopen, hcontest, a, ha, hasub, haid⟩ := he r hr id' hrid
  refine ⟨p, mem_decided.mpr (.inr ⟨hp, hpid ▸ hne⟩), hpid, hpopen, hcontest, a,
    mem_judgings_cancel_of_ne ha ?_, hasub, haid⟩
  rw [haid]
  exact fun heq => hne (Option.some.inj heq)

/-- **Cancelling a rejudging** leaves the store sound. -/
theorem Sound.cancel (now : Instant) (operator : Option Int) :
    (s.cancelRejudging q.id now operator).Sound where
  numbered := by
    refine ⟨?judging_le, ?rejudging_le, ?owned⟩
    case judging_le =>
      intro b hb
      rcases mem_judgings_cancelRejudging.mp hb with ⟨a, ha, -, -, rfl⟩ | ⟨hb, -⟩
      · exact h.numbered.judging_le a ha
      · exact h.numbered.judging_le b hb
    case rejudging_le =>
      intro p hp
      rcases mem_or_eq_of_mem_decided hq hp with ⟨hp, -⟩ | rfl
      · exact h.numbered.rejudging_le p hp
      · exact h.numbered.rejudging_le q hq
    case owned =>
      intro b hb
      have hown : ∃ r ∈ s.submissions, r.id = b.submissionId := by
        rcases mem_judgings_cancelRejudging.mp hb with ⟨a, ha, -, -, rfl⟩ | ⟨hb, -⟩
        · exact h.numbered.owned a ha
        · exact h.numbered.owned b hb
      obtain ⟨r, hr, hid⟩ := hown
      obtain ⟨r', hr', hid'⟩ := exists_mem_release hr q.id
      exact ⟨r', hr', hid'.trans hid⟩
  ordered := by
    intro b hb
    rcases mem_judgings_cancelRejudging.mp hb with ⟨a, ha, -, hl, rfl⟩ | ⟨hb, -⟩
    · exact h.ordered_abandon ha hl now
    · exact h.ordered b hb
  authority := h.authority_cancel hq hopen
  membership := h.membership_cancel hq hopen
  runs := fun n hn => h.runs n (Table.mem_keep.mp hn).1

end Cancel

/-! ## Applying -/

section Apply

variable (h : s.Sound) (hq : q ∈ s.rejudgings) (hopen : q.applied = none)

/-- A judging after a rejudging is applied, and what it was before. -/
theorem exists_of_mem_apply {b : Judging} {id : Int}
    (hb : b ∈ (s.applyRejudging id now operator).judgings) :
    ∃ a ∈ s.judgings, (b = if s.holds id a.submissionId then a.settled id else a) ∧
      b.id = a.id ∧ b.submissionId = a.submissionId ∧ b.rejudgingId = a.rejudgingId ∧
      b.previousJudgingId = a.previousJudgingId ∧ b.lifecycle = a.lifecycle := by
  obtain ⟨a, ha, rfl⟩ := mem_judgings_applyRejudging.mp hb
  refine ⟨a, ha, rfl, ?_⟩
  split <;> exact ⟨rfl, rfl, rfl, rfl, rfl⟩

/-- And a judging before it, with what it is after. -/
theorem exists_mem_apply {a : Judging} (ha : a ∈ s.judgings) (id : Int) (now : Instant)
    (operator : Option Int) :
    ∃ b ∈ (s.applyRejudging id now operator).judgings,
      (b = if s.holds id a.submissionId then a.settled id else a) ∧
      b.id = a.id ∧ b.submissionId = a.submissionId ∧ b.rejudgingId = a.rejudgingId := by
  refine ⟨_, mem_judgings_applyRejudging.mpr ⟨a, ha, rfl⟩, rfl, ?_⟩
  split <;> exact ⟨rfl, rfl, rfl⟩

/-- A judging in another rejudging is not made active. -/
theorem active_apply {a : Judging} {id : Int} (hid : a.rejudgingId = some id)
    (hne : id ≠ q.id) (hact : a.active = false) :
    (if s.holds q.id a.submissionId then a.settled q.id else a).active = false := by
  split
  · refine decide_eq_false fun heq => ?_
    rw [hid] at heq
    exact hne (Option.some.inj heq)
  · exact hact

include h hq hopen

/-- **The one candidate of a submission** is its active judging once its
rejudging is applied. -/
theorem Sound.authority_apply : (s.applyRejudging q.id now operator).Authority := by
  refine ⟨?exists_active, ?active_eq⟩
  case exists_active =>
    intro b hb
    obtain ⟨a, ha, -, -, hba, -⟩ := exists_of_mem_apply hb
    rw [hba]
    -- a submission with a candidate gets that one, any other keeps its own
    by_cases hheld : s.holds q.id a.submissionId = true
    · obtain ⟨c, hc, hca, hcid⟩ := holds_iff.mp hheld
      refine ⟨c.settled q.id, mem_judgings_applyRejudging.mpr ⟨c, hc, ?_⟩, hca, ?_⟩
      · rw [hca, if_pos hheld]
      · exact decide_eq_true hcid
    · obtain ⟨c, hc, hca, hcact⟩ := h.authority.exists_active a ha
      refine ⟨c, mem_judgings_applyRejudging.mpr ⟨c, hc, ?_⟩, hca, hcact⟩
      rw [hca, if_neg hheld]
  case active_eq =>
    intro b hb c hc hsub hact hact'
    obtain ⟨a, ha, rfl⟩ := mem_judgings_applyRejudging.mp hb
    obtain ⟨d, hd, rfl⟩ := mem_judgings_applyRejudging.mp hc
    have hids : a.submissionId = d.submissionId := by
      split at hsub <;> split at hsub <;> exact hsub
    by_cases hheld : s.holds q.id a.submissionId = true
    · have hheld' : s.holds q.id d.submissionId = true := hids ▸ hheld
      rw [if_pos hheld] at hact
      rw [if_pos hheld'] at hact'
      have had := h.membership.candidate_eq q hq hopen a ha d hd (of_decide_eq_true hact)
        (of_decide_eq_true hact') hids
      rw [had]
    · have hheld' : ¬ s.holds q.id d.submissionId = true := hids ▸ hheld
      rw [if_neg hheld] at hact
      rw [if_neg hheld'] at hact'
      rw [h.authority.active_eq a ha d hd hids hact hact']

variable (hdone : ∀ j ∈ s.judgings, j.rejudgingId = some q.id → j.lifecycle = .finalized)

include hdone

omit hopen in
theorem Sound.membership_apply : (s.applyRejudging q.id now operator).Membership := by
  have hm := h.membership
  refine ⟨?exists_rejudging, ?candidate, ?candidate_eq, ?decided⟩
  case exists_rejudging =>
    intro b hb id hbid
    obtain ⟨a, ha, -, -, -, hid, -⟩ := exists_of_mem_apply hb
    obtain ⟨p, hp, rfl⟩ := hm.exists_rejudging a ha id (hid.symm.trans hbid)
    exact exists_mem_decided hp
  case candidate =>
    intro p hp hpopen b hb hbid
    obtain ⟨hp, hpq⟩ := mem_of_mem_decided hp hpopen
    obtain ⟨a, ha, hba, hid, hsub, hrej, hprev, -⟩ := exists_of_mem_apply hb
    have haid := hrej.symm.trans hbid
    obtain ⟨hact, ⟨i, hi⟩, r, hr, hra, hrid⟩ := hm.candidate p hp hpopen a ha haid
    obtain ⟨i', hi', -, hii, his, -⟩ := exists_mem_apply hi.1 q.id now operator
    refine ⟨?_, ⟨i', hi.of_mem hi' hii his ?_ hsub hprev⟩, r, mem_release_of_ne hr ?_, ?_, hrid⟩
    · rw [hba]
      exact active_apply haid hpq hact
    · rw [hii, hid]
      exact hi.2.1
    · rw [hrid]
      exact fun heq => hpq (Option.some.inj heq)
    · rw [hra, hsub]
  case candidate_eq =>
    intro p hp hpopen b hb c hc hbid hcid hbc
    obtain ⟨hp, -⟩ := mem_of_mem_decided hp hpopen
    obtain ⟨a, ha, hba, -, hsub, hrej, -⟩ := exists_of_mem_apply hb
    obtain ⟨d, hd, hcd, -, hsub', hrej', -⟩ := exists_of_mem_apply hc
    rw [hsub, hsub'] at hbc
    have had := hm.candidate_eq p hp hpopen a ha d hd (hrej.symm.trans hbid)
      (hrej'.symm.trans hcid) hbc
    rw [hba, hcd, had]
  case decided =>
    intro p hp applied happ b hb hbid
    obtain ⟨a, ha, hba, -, -, hrej, -, hl⟩ := exists_of_mem_apply hb
    have haid := hrej.symm.trans hbid
    rcases mem_or_eq_of_mem_decided hq hp with ⟨hp, hpq⟩ | rfl
    · obtain ⟨hfin, hact⟩ := hm.decided p hp applied happ a ha haid
      refine ⟨hl.trans hfin, fun hf => ?_⟩
      rw [hba]
      exact active_apply haid hpq (hact hf)
    · refine ⟨hl.trans (hdone a ha haid), fun hf => ?_⟩
      rw [hf] at happ
      cases happ

omit h hq hopen hdone in
/-- The submissions that are not let go keep their candidates. -/
theorem enrolled_apply (he : s.Enrolled) (id : Int) (now : Instant) (operator : Option Int) :
    (s.applyRejudging id now operator).Enrolled := by
  intro r hr id' hrid
  obtain ⟨hr, hne⟩ := mem_of_mem_release hr hrid
  obtain ⟨p, hp, hpid, hpopen, hcontest, a, ha, hasub, haid⟩ := he r hr id' hrid
  obtain ⟨b, hb, -, -, hba, hrej⟩ := exists_mem_apply ha id now operator
  exact ⟨p, mem_decided.mpr (.inr ⟨hp, hpid ▸ hne⟩), hpid, hpopen, hcontest, b, hb,
    hba.trans hasub, hrej.trans haid⟩

/-- **Applying a rejudging** whose candidates have all ended leaves the store
sound. -/
theorem Sound.apply (now : Instant) (operator : Option Int) :
    (s.applyRejudging q.id now operator).Sound where
  numbered := by
    refine ⟨?judging_le, ?rejudging_le, ?owned⟩
    case judging_le =>
      intro b hb
      obtain ⟨a, ha, -, hid, -⟩ := exists_of_mem_apply hb
      rw [hid]
      exact h.numbered.judging_le a ha
    case rejudging_le =>
      intro p hp
      rcases mem_or_eq_of_mem_decided hq hp with ⟨hp, -⟩ | rfl
      · exact h.numbered.rejudging_le p hp
      · exact h.numbered.rejudging_le q hq
    case owned =>
      intro b hb
      obtain ⟨a, ha, -, -, hsub, -⟩ := exists_of_mem_apply hb
      obtain ⟨r, hr, hid⟩ := h.numbered.owned a ha
      obtain ⟨r', hr', hid'⟩ := exists_mem_release hr q.id
      exact ⟨r', hr', (hid'.trans hid).trans hsub.symm⟩
  ordered := by
    intro b hb
    obtain ⟨a, ha, rfl⟩ := mem_judgings_applyRejudging.mp hb
    split
    · exact (h.ordered a ha).settled (hdone a ha)
    · exact h.ordered a ha
  authority := h.authority_apply hq hopen
  membership := h.membership_apply hq hdone
  runs := h.runs

end Apply

end Store

end JudgeQueue
