import JudgeQueue.Proofs.Sound.Queue
/-!
# Sound stores — open rejudgings

A rejudging is opened without candidates. While it is open it takes in
submissions that are in none, each with a candidate beside its active
judging. How it ends is the subject of the next file.
-/

namespace JudgeQueue

namespace Store

variable {s : Store}

/-! ## Opening -/

/-- **A new rejudging** has no candidates. -/
theorem Sound.openRejudging (h : s.Sound) (new : NewRejudging) (now : Instant) :
    (s.insertRejudging new now).2.Sound := by
  have hmem := @mem_rejudgings_insertRejudging s h.numbered new now
  have hold : ∀ q ∈ s.rejudgings, q ∈ (s.insertRejudging new now).2.rejudgings :=
    fun q hq => hmem.mpr (.inr hq)
  -- no judging points at the id that is given now
  have hnew : ∀ j ∈ s.judgings, j.rejudgingId ≠ some (s.lastRejudging + 1) := by
    intro j hj hid
    obtain ⟨q, hq, hqid⟩ := h.membership.exists_rejudging j hj _ hid
    have hle := h.numbered.rejudging_le q hq
    omega
  refine ⟨⟨h.numbered.judging_le, fun q hq => ?_, h.numbered.owned⟩, h.ordered, ⟨h.authority.1,
    h.authority.2⟩, ?_, h.runs⟩
  · change q.id ≤ s.lastRejudging + 1
    rcases hmem.mp hq with rfl | hq
    · exact Int.le_refl _
    · have hle := h.numbered.rejudging_le q hq
      omega
  · refine ⟨fun j hj id hid => ?_, fun q hq hopen j hj hid => ?_,
      fun q hq hopen i hi j hj hid hid' => ?_, fun q hq applied happ j hj hid => ?_⟩
    · obtain ⟨q, hq, hqid⟩ := h.membership.exists_rejudging j hj id hid
      exact ⟨q, hold q hq, hqid⟩
    · rcases hmem.mp hq with rfl | hq
      · exact absurd hid (hnew j hj)
      · exact h.membership.candidate q hq hopen j hj hid
    · rcases hmem.mp hq with rfl | hq
      · exact absurd hid (hnew i hi)
      · exact h.membership.candidate_eq q hq hopen i hi j hj hid hid'
    · rcases hmem.mp hq with rfl | hq
      · exact absurd hid (hnew j hj)
      · exact h.membership.decided q hq applied happ j hj hid

theorem Numbered.enrolled_openRejudging (h : s.Numbered) (he : s.Enrolled) (new : NewRejudging)
    (now : Instant) : (s.insertRejudging new now).2.Enrolled := by
  intro r hr id hid
  obtain ⟨q, hq, hrest⟩ := he r hr id hid
  exact ⟨q, (mem_rejudgings_insertRejudging h).mpr (.inr hq), hrest⟩

/-! ## Proposing a candidate -/

section Propose

variable {q : Rejudging} {r : Submission} {j : Judging} (h : s.Sound) (hq : q ∈ s.rejudgings)
variable (hopen : q.applied = none) (hr : r ∈ s.submissions) (hfree : r.rejudgingId = none)
variable (hcontest : r.contestId = q.contestId) (hj : j ∈ s.judgings)
variable (hsub : j.submissionId = r.id) (fullTest : Bool)

include h hr hsub

/-- A candidate joins the other judgings. -/
theorem Sound.queues_propose :
    s.Queues (s.propose r.id q.id j fullTest)
      ((Rejudge.candidate q.id fullTest j).queued (s.lastJudging + 1)) id where
  mem_iff b := by
    rw [mem_judgings_propose h.numbered]
    simp
  id_new := rfl
  lifecycle_new := rfl
  counted_new := rfl
  owned_new := ⟨r, hr, hsub.symm⟩
  id_eq _ := rfl
  submissionId_eq _ := rfl
  lastJudging := rfl
  lastRejudging := rfl
  rejudgings := rfl
  runs := rfl

omit h hsub in
/-- The submission of a judging that is in a rejudging already is not the
one that moves. -/
theorem mem_submissions_propose_of_candidate (hfree : r.rejudgingId = none) {b : Submission}
    (hb : b ∈ s.submissions) {id : Int} (hid : b.rejudgingId = some id) :
    b ∈ (s.propose r.id q.id j fullTest).submissions := by
  refine mem_submissions_propose.mpr (.inr ⟨hb, fun heq => ?_⟩)
  rw [submission_eq hb hr heq, hfree] at hid
  cases hid

include hq hopen hfree hj

/-- **A candidate of a free submission** makes it a member. -/
theorem Sound.membership_propose : (s.propose r.id q.id j fullTest).Membership := by
  have hqueues := h.queues_propose hr hsub fullTest (q := q)
  have hm := h.membership
  have hmem := @mem_judgings_propose s h.numbered r.id q.id j fullTest
  -- a candidate beside the new one is not one of the submission that moves
  have hother : ∀ a ∈ s.judgings, a.rejudgingId = some q.id → a.submissionId ≠ j.submissionId := by
    intro a ha haid heq
    have hid := h.rejudgingId_of_candidate hq hopen ha haid hr (hsub.symm.trans heq.symm)
    rw [hfree] at hid
    cases hid
  refine ⟨?exists_rejudging, ?candidate, ?candidate_eq, ?decided⟩
  case exists_rejudging =>
    intro b hb id hbid
    rcases hmem.mp hb with rfl | hb
    · exact ⟨q, hq, Option.some.inj hbid⟩
    · exact hm.exists_rejudging b hb id hbid
  case candidate =>
    intro p hp hpopen b hb hbid
    rcases hmem.mp hb with rfl | hb
    · have hpq : q.id = p.id := Option.some.inj hbid
      refine ⟨rfl, ⟨j, hqueues.mem_old hj, ?_, rfl, rfl⟩, r.moved (some q.id), ?_, hsub.symm, ?_⟩
      · exact h.numbered.ne_next hj
      · exact mem_submissions_propose.mpr (.inl ⟨r, hr, rfl, rfl⟩)
      · rw [← hpq]
        rfl
    · obtain ⟨hact, ⟨i, hi⟩, t, ht, hts, htid⟩ := hm.candidate p hp hpopen b hb hbid
      exact ⟨hact, ⟨_, hqueues.isPrevious h.numbered hi (.inl rfl) rfl rfl⟩, t,
        mem_submissions_propose_of_candidate hr fullTest hfree ht htid, hts, htid⟩
  case candidate_eq =>
    intro p hp hpopen b hb c hc hbid hcid hbc
    rcases hmem.mp hb with rfl | hb <;> rcases hmem.mp hc with rfl | hc
    · rfl
    · have hpq : q.id = p.id := Option.some.inj hbid
      rw [← hpq] at hcid
      exact absurd hbc.symm (hother c hc hcid)
    · have hpq : q.id = p.id := Option.some.inj hcid
      rw [← hpq] at hbid
      exact absurd hbc (hother b hb hbid)
    · exact hm.candidate_eq p hp hpopen b hb c hc hbid hcid hbc
  case decided =>
    intro p hp applied happ b hb hbid
    rcases hmem.mp hb with rfl | hb
    · rw [rejudging_eq hp hq (Option.some.inj hbid).symm, hopen] at happ
      cases happ
    · exact hm.decided p hp applied happ b hb hbid

omit hfree hj in
include hcontest in
/-- The submission that moves knows its rejudging. -/
theorem Sound.enrolled_propose (he : s.Enrolled) :
    (s.propose r.id q.id j fullTest).Enrolled := by
  have hqueues := h.queues_propose hr hsub fullTest (q := q)
  intro t ht id htid
  rcases mem_submissions_propose.mp ht with ⟨t', ht', hts, rfl⟩ | ⟨ht, -⟩
  · rw [submission_eq ht' hr hts] at htid ⊢
    exact ⟨q, hq, Option.some.inj htid, hopen, hcontest, _, hqueues.mem_new, hsub, htid⟩
  · obtain ⟨p, hp, hpid, hpopen, hpc, a, ha, hrest⟩ := he t ht id htid
    exact ⟨p, hp, hpid, hpopen, hpc, a, hqueues.mem_old ha, hrest⟩

/-- **Proposing a candidate** leaves the store sound. -/
theorem Sound.propose : (s.propose r.id q.id j fullTest).Sound := by
  have hqueues := h.queues_propose hr hsub fullTest (q := q)
  refine ⟨hqueues.numbered h.numbered fun t ht => ?_, hqueues.ordered h.ordered,
    hqueues.authority_of_inactive h.authority rfl (fun _ _ => rfl) ⟨j, hj, rfl⟩,
    h.membership_propose hq hopen hr hfree hj hsub fullTest, h.runs⟩
  by_cases hid : t.id = r.id
  · exact ⟨t.moved (some q.id), mem_submissions_propose.mpr (.inl ⟨t, ht, hid, rfl⟩), rfl⟩
  · exact ⟨t, mem_submissions_propose.mpr (.inr ⟨ht, hid⟩), rfl⟩

end Propose

end Store

end JudgeQueue
