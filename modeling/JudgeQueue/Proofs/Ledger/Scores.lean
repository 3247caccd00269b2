import JudgeQueue.Proofs.Ledger.Owners
import JudgeQueue.Proofs.Sound.Decide
/-!
# The ledger — scores of submissions

The tally of a sound store is a sum over submissions: each adds the score that
its counted judging gives it. Applying a rejudging settles the scores of its
submissions. A submission that has a candidate is scored by that one from then
on, whatever scored it before, and no other submission changes its score.
-/

namespace JudgeQueue

namespace Store

/-- What a submission adds to its counters if the judgings that pass a test
score it: one, and one accepted if such a judging was accepted. -/
def score (s : Store) (p : Judging → Bool) (r : Submission) : Int × Int :=
  if s.owns r p then
    (1, if s.owns r fun j => p j && decide (j.verdict = some .accepted) then 1 else 0)
  else 0

/-- What applying a rejudging adds to the counters for one of its submissions:
the candidate is scored, and what was counted before is taken back. -/
def gain (s : Store) (rejudgingId : Int) (r : Submission) : Int × Int :=
  (1, if s.owns r fun j => decide (j.rejudgingId = some rejudgingId) &&
      decide (j.verdict = some .accepted) then 1 else 0) -
    s.score Judging.counted r

variable {s s' : Store} {k : StatisticsKey} {r r' : Submission}

/-- Scores are told by which tests are passed by judgings of the submission. -/
theorem score_congr {p q : Judging → Bool} (howns : s'.owns r' p = s.owns r q)
    (haccepted : (s'.owns r' fun j => p j && decide (j.verdict = some .accepted)) =
      s.owns r fun j => q j && decide (j.verdict = some .accepted)) :
    s'.score p r' = s.score q r := by
  rw [score, score, howns, haccepted]

/-- **The tally adds up scores** of the submissions that count at the key. -/
theorem Sound.tally_eq_total (h : s.Sound) :
    s.tally k =
      s.submissions.total fun r => if countsAt k r then s.score Judging.counted r else 0 := by
  have hscore : ∀ r : Submission, (if countsAt k r then s.score Judging.counted r else 0) =
      if (countsAt k r && s.owns r Judging.counted) = true then
        (1, if (s.owns r fun j => j.counted && decide (j.verdict = some .accepted)) = true then 1
          else 0)
      else 0 := by
    intro r
    cases countsAt k r with
    | false => rfl
    | true => rfl
  -- whoever owns an accepted counted judging owns a counted one
  have haccepted : ∀ r : Submission, (countsAt k r && s.owns r Judging.counted &&
      s.owns r fun j => j.counted && decide (j.verdict = some .accepted)) =
      (countsAt k r && s.owns r fun j => j.counted && decide (j.verdict = some .accepted)) := by
    intro r
    rw [Bool.and_assoc]
    congr 1
    rw [Bool.and_eq_right_iff_imp]
    intro howns
    obtain ⟨j, hj, hsub, hp⟩ := owns_iff.mp howns
    exact owns_iff.mpr ⟨j, hj, hsub, (Bool.and_eq_true _ _ ▸ hp).1⟩
  simp only [hscore]
  rw [Table.total_ite, h.tally_eq]
  simp only [haccepted]
  rfl

/-! ## Applying a rejudging -/

section Apply

variable {q : Rejudging} {now : Instant} {operator : Option Int}

/-- What the judgings of a submission pass after a rejudging is applied. -/
theorem owns_applyRejudging {id : Int} {p : Judging → Bool} (hid : r'.id = r.id) :
    (s.applyRejudging id now operator).owns r' p =
      if s.holds id r.id then s.owns r fun j => p (j.settled id) else s.owns r p := by
  have howns : ∀ f : Judging → Bool, s.owns r f = true ↔
      ∃ j ∈ s.judgings, j.submissionId = r.id ∧ f j = true := fun f => owns_iff
  rw [Bool.eq_iff_iff, owns_iff, hid]
  have hafter : (∃ b ∈ (s.applyRejudging id now operator).judgings,
      b.submissionId = r.id ∧ p b = true) ↔
      ∃ a ∈ s.judgings, a.submissionId = r.id ∧
        p (if s.holds id r.id then a.settled id else a) = true := by
    constructor
    · rintro ⟨b, hb, hsub, hp⟩
      obtain ⟨a, ha, rfl, -, hba, -⟩ := exists_of_mem_apply hb
      have hasub : a.submissionId = r.id := hba.symm.trans hsub
      rw [hasub] at hp
      exact ⟨a, ha, hasub, hp⟩
    · rintro ⟨a, ha, hsub, hp⟩
      obtain ⟨b, hb, hba, -, hbsub, -⟩ := exists_mem_apply ha id now operator
      rw [hsub] at hba
      exact ⟨b, hb, hbsub.trans hsub, hba ▸ hp⟩
  rw [hafter]
  split
  · exact (howns _).symm
  · exact (howns _).symm

/-- A submission without a candidate keeps its score. -/
theorem score_apply_of_not_holds {id : Int} (hid : r'.id = r.id)
    (hholds : ¬ s.holds id r.id = true) :
    (s.applyRejudging id now operator).score Judging.counted r' = s.score Judging.counted r := by
  refine score_congr ?_ ?_
  · rw [owns_applyRejudging hid, if_neg hholds]
  · rw [owns_applyRejudging hid, if_neg hholds]

/-- **A submission with a candidate** is scored by the candidate. -/
theorem score_apply_of_holds {id : Int} (hid : r'.id = r.id) (hholds : s.holds id r.id = true) :
    (s.applyRejudging id now operator).score Judging.counted r' =
      s.score Judging.counted r + s.gain id r := by
  have hcandidate : (s.owns r fun j => (j.settled id).counted) = true := by
    obtain ⟨j, hj, hsub, hjid⟩ := holds_iff.mp hholds
    exact owns_iff.mpr ⟨j, hj, hsub, decide_eq_true hjid⟩
  rw [gain, add_sub_cancel, score, owns_applyRejudging hid, owns_applyRejudging hid, if_pos hholds,
    if_pos hholds, if_pos hcandidate]
  rfl

/-- **The tally changes by the gains** of the submissions of the rejudging. -/
theorem Sound.tally_applyRejudging (h : s.Sound) (he : s.Enrolled) (hq : q ∈ s.rejudgings)
    (hopen : q.applied = none)
    (hdone : ∀ j ∈ s.judgings, j.rejudgingId = some q.id → j.lifecycle = .finalized) :
    (s.applyRejudging q.id now operator).tally k = s.tally k +
      s.submissions.total fun r =>
        if r.rejudgingId = some q.id ∧ countsAt k r = true then s.gain q.id r else 0 := by
  have hsubmissions : (s.applyRejudging q.id now operator).submissions = s.release q.id := rfl
  rw [(h.apply hq hopen hdone now operator).tally_eq_total, h.tally_eq_total, hsubmissions, release,
    Table.total_update, ← Table.total_add]
  refine Table.total_congr fun r hr => ?_
  -- a submission is in the rejudging exactly if it has a candidate there
  have hmember : r.rejudgingId = some q.id ↔ s.holds q.id r.id = true := by
    rw [holds_iff]
    constructor
    · intro hid
      obtain ⟨-, -, -, -, -, howner⟩ := he r hr q.id hid
      exact howner
    · rintro ⟨j, hj, hsub, hid⟩
      exact h.rejudgingId_of_candidate hq hopen hj hid hr hsub.symm
  by_cases hid : r.rejudgingId = some q.id
  · have hcounts : countsAt k (r.moved none) = countsAt k r := rfl
    rw [if_pos (decide_eq_true hid), hcounts]
    cases countsAt k r with
    | false => simp
    | true =>
      rw [if_pos rfl, if_pos rfl, if_pos ⟨hid, rfl⟩]
      exact score_apply_of_holds rfl (hmember.mp hid)
  · have hholds : ¬ s.holds q.id r.id = true := fun hholds => hid (hmember.mpr hholds)
    simp only [hid, decide_false, Bool.false_eq_true, if_false, false_and, add_zero]
    rw [score_apply_of_not_holds rfl hholds]

end Apply

end Store

end JudgeQueue
