import JudgeQueue.Proofs.Grading.Summary
import JudgeQueue.Proofs.Sound.Basic
/-!
# Sound stores — judgings that move on

Most changes touch judgings where they stand: a judging is handed out, ends
with a result or is flagged, and no submission or rejudging is involved.
Such a change keeps the store sound whatever it does, as long as no judging
that has ended is opened again and none ends without a result.
-/

namespace JudgeQueue

namespace Judging

/-- A judging moves on: it stays where it belongs, and how it has ended
lasts. -/
structure Advances (j j' : Judging) : Prop where
  id : j'.id = j.id
  submissionId : j'.submissionId = j.submissionId
  active : j'.active = j.active
  rejudgingId : j'.rejudgingId = j.rejudgingId
  previousJudgingId : j'.previousJudgingId = j.previousJudgingId
  ended : j.lifecycle = .finalized → j'.lifecycle = .finalized ∧ j'.verdict = j.verdict
  result : j'.lifecycle = .finalized → j.lifecycle = .finalized ∨ j'.HasResult
  counted : j'.counted = true → j.counted = true ∨ j'.active = true ∧ j'.lifecycle = .finalized

variable {j j' : Judging}

theorem Advances.refl (j : Judging) : j.Advances j :=
  ⟨rfl, rfl, rfl, rfl, rfl, fun h => ⟨h, rfl⟩, .inl, .inl⟩

/-- A judging that moves on still agrees with itself. -/
theorem Advances.ordered (h : j.Advances j') (hj : j.Ordered) : j'.Ordered where
  ended hl := by
    rcases h.result hl with hfin | hr
    · rw [HasResult, (h.ended hfin).2, h.active, h.rejudgingId]
      exact hj.ended hfin
    · exact .inl hr
  counted hc := by
    rcases h.counted hc with hc | hends
    · obtain ⟨ha, hl⟩ := hj.counted hc
      exact ⟨h.active.trans ha, (h.ended hl).1⟩
    · exact hends

end Judging

namespace Store

/-- Every judging of a store moves on, and nothing else changes that it is
tied to. -/
structure Advances (s s' : Store) : Prop where
  submissions : s'.submissions = s.submissions
  rejudgings : s'.rejudgings = s.rejudgings
  lastJudging : s'.lastJudging = s.lastJudging
  lastRejudging : s'.lastRejudging = s.lastRejudging
  forward : ∀ j ∈ s.judgings, ∃ j' ∈ s'.judgings, j.Advances j'
  back : ∀ j' ∈ s'.judgings, ∃ j ∈ s.judgings, j.Advances j'

variable {s s' : Store}

/-- A judging that another stands in for stays so, in each store that has
it under its id. -/
theorem IsPrevious.of_mem {i j p q : Judging} (h : s.IsPrevious i p) (hq : q ∈ s'.judgings)
    (hid : q.id = p.id) (hsub : q.submissionId = p.submissionId) (hne : q.id ≠ j.id)
    (hsame : j.submissionId = i.submissionId) (hprev : j.previousJudgingId = i.previousJudgingId) :
    s'.IsPrevious j q := by
  obtain ⟨-, -, hps, hpp⟩ := h
  refine ⟨hq, hne, ?_, ?_⟩
  · rw [hsub, hps, hsame]
  · rw [hprev, hpp, hid]

namespace Advances

/-- A change of some judgings, row by row. -/
theorem of_update {p : Judging → Bool} {f : Judging → Judging} (hf : ∀ j, key (f j) = key j)
    (hsub : s'.submissions = s.submissions) (hrej : s'.rejudgings = s.rejudgings)
    (hlast : s'.lastJudging = s.lastJudging) (hlast' : s'.lastRejudging = s.lastRejudging)
    (hjud : s'.judgings = s.judgings.update p f hf)
    (h : ∀ j ∈ s.judgings, p j = true → j.Advances (f j)) : s.Advances s' := by
  have hrow : ∀ j ∈ s.judgings, j.Advances (if p j then f j else j) := by
    intro j hj
    split
    · next hp => exact h j hj hp
    · exact .refl j
  refine ⟨hsub, hrej, hlast, hlast', fun j hj => ?_, fun j' hj' => ?_⟩
  · refine ⟨if p j then f j else j, ?_, hrow j hj⟩
    rw [hjud, Table.mem_update]
    exact ⟨j, hj, rfl⟩
  · rw [hjud, Table.mem_update] at hj'
    obtain ⟨j, hj, rfl⟩ := hj'
    exact ⟨j, hj, hrow j hj⟩

/-- A change of one judging. -/
theorem of_modify {j : Judging} {f : Judging → Judging} (hf : ∀ j, key (f j) = key j)
    (hsub : s'.submissions = s.submissions) (hrej : s'.rejudgings = s.rejudgings)
    (hlast : s'.lastJudging = s.lastJudging) (hlast' : s'.lastRejudging = s.lastRejudging)
    (hjud : s'.judgings = s.judgings.modify j.id f hf) (hj : j ∈ s.judgings)
    (h : j.Advances (f j)) : s.Advances s' := by
  refine of_update hf hsub hrej hlast hlast' hjud fun i hi hid => ?_
  rw [judging_eq hi hj (of_decide_eq_true hid)]
  exact h

/-- A change that leaves the judgings alone. -/
theorem of_eq (hsub : s'.submissions = s.submissions) (hrej : s'.rejudgings = s.rejudgings)
    (hlast : s'.lastJudging = s.lastJudging) (hlast' : s'.lastRejudging = s.lastRejudging)
    (hjud : s'.judgings = s.judgings) : s.Advances s' := by
  refine ⟨hsub, hrej, hlast, hlast', fun j hj => ⟨j, ?_, .refl j⟩, fun j hj => ⟨j, ?_, .refl j⟩⟩
  · rwa [hjud]
  · rwa [← hjud]

/-! ## What it keeps -/

section Keeps

variable (h : s.Advances s')

include h

theorem numbered (hs : s.Numbered) : s'.Numbered := by
  refine ⟨fun j' hj' => ?_, fun q hq => ?_, fun j' hj' => ?_⟩
  · obtain ⟨j, hj, hadv⟩ := h.back j' hj'
    rw [hadv.id, h.lastJudging]
    exact hs.judging_le j hj
  · rw [h.rejudgings] at hq
    rw [h.lastRejudging]
    exact hs.rejudging_le q hq
  · obtain ⟨j, hj, hadv⟩ := h.back j' hj'
    rw [h.submissions, hadv.submissionId]
    exact hs.owned j hj

theorem authority (ha : s.Authority) : s'.Authority := by
  refine ⟨fun j' hj' => ?_, fun a' ha' b' hb' hsub hact hact' => ?_⟩
  · obtain ⟨j, hj, hadv⟩ := h.back j' hj'
    obtain ⟨a, hmem, hsub, hact⟩ := ha.exists_active j hj
    obtain ⟨a', hmem', hadv'⟩ := h.forward a hmem
    refine ⟨a', hmem', ?_, hadv'.active.trans hact⟩
    rw [hadv'.submissionId, hadv.submissionId, hsub]
  · obtain ⟨a, hamem, haadv⟩ := h.back a' ha'
    obtain ⟨b, hbmem, hbadv⟩ := h.back b' hb'
    rw [haadv.submissionId, hbadv.submissionId] at hsub
    rw [haadv.active] at hact
    rw [hbadv.active] at hact'
    have hab := ha.active_eq a hamem b hbmem hsub hact hact'
    refine judging_eq ha' hb' ?_
    rw [haadv.id, hbadv.id, hab]

theorem membership (hm : s.Membership) : s'.Membership where
  exists_rejudging j' hj' id hid := by
    obtain ⟨j, hj, hadv⟩ := h.back j' hj'
    rw [h.rejudgings]
    exact hm.exists_rejudging j hj id (hadv.rejudgingId.symm.trans hid)
  candidate q hq hopen j' hj' hid := by
    obtain ⟨j, hj, hadv⟩ := h.back j' hj'
    rw [h.rejudgings] at hq
    rw [hadv.rejudgingId] at hid
    obtain ⟨hact, ⟨p, hp⟩, hsub⟩ := hm.candidate q hq hopen j hj hid
    obtain ⟨p', hp', hpadv⟩ := h.forward p hp.1
    refine ⟨hadv.active.trans hact, ⟨p', hp.of_mem hp' hpadv.id hpadv.submissionId ?_
      hadv.submissionId hadv.previousJudgingId⟩, ?_⟩
    · rw [hpadv.id, hadv.id]
      exact hp.2.1
    · rwa [h.submissions, hadv.submissionId]
  candidate_eq q hq hopen i' hi' j' hj' hid hid' hsub := by
    obtain ⟨i, hi, hiadv⟩ := h.back i' hi'
    obtain ⟨j, hj, hjadv⟩ := h.back j' hj'
    rw [h.rejudgings] at hq
    rw [hiadv.rejudgingId] at hid
    rw [hjadv.rejudgingId] at hid'
    rw [hiadv.submissionId, hjadv.submissionId] at hsub
    have hij := hm.candidate_eq q hq hopen i hi j hj hid hid' hsub
    refine judging_eq hi' hj' ?_
    rw [hiadv.id, hjadv.id, hij]
  decided q hq applied happ j' hj' hid := by
    obtain ⟨j, hj, hadv⟩ := h.back j' hj'
    rw [h.rejudgings] at hq
    rw [hadv.rejudgingId] at hid
    obtain ⟨hl, hact⟩ := hm.decided q hq applied happ j hj hid
    exact ⟨(hadv.ended hl).1, fun hf => hadv.active.trans (hact hf)⟩

theorem enrolled (he : s.Enrolled) : s'.Enrolled := by
  intro r hr id hid
  rw [h.submissions] at hr
  obtain ⟨q, hq, hqid, hopen, hcontest, j, hj, hsub, hjid⟩ := he r hr id hid
  obtain ⟨j', hj', hadv⟩ := h.forward j hj
  rw [h.rejudgings]
  exact ⟨q, hq, hqid, hopen, hcontest, j', hj', hadv.submissionId.trans hsub,
    hadv.rejudgingId.trans hjid⟩

/-- **Judgings that move on leave the store sound.** -/
theorem sound (hs : s.Sound) (hruns : s'.RunsGraded) : s'.Sound where
  numbered := h.numbered hs.numbered
  ordered j' hj' := by
    obtain ⟨j, hj, hadv⟩ := h.back j' hj'
    exact hadv.ordered (hs.ordered j hj)
  authority := h.authority hs.authority
  membership := h.membership hs.membership
  runs := hruns

end Keeps

end Advances

/-- A change beside the judgings and what they are tied to keeps the store
sound. -/
theorem Sound.of_eq (h : s.Sound) (hsub : s'.submissions = s.submissions)
    (hrej : s'.rejudgings = s.rejudgings) (hlast : s'.lastJudging = s.lastJudging)
    (hlast' : s'.lastRejudging = s.lastRejudging) (hjud : s'.judgings = s.judgings)
    (hruns : s'.RunsGraded) : s'.Sound :=
  (Advances.of_eq hsub hrej hlast hlast' hjud).sound h hruns

end Store

end JudgeQueue
