import JudgeQueue.Proofs.Ledger.Apply
import JudgeQueue.Proofs.Ledger.Scores
import JudgeQueue.Proofs.Reachable.Membership
/-!
# Reachable worlds — rejudgings that are applied

Applying a rejudging goes through just if the rejudging is open and has nothing
left to do; otherwise nothing changes. It passes the authority over each of its
submissions to the candidate there, whatever has become of the judging that
had it before: that one may still wait in the queue, may have been requeued
since, or may never have been counted. The statistics follow.
-/

namespace JudgeQueue

namespace Store

/-- What applying a rejudging does to a store. The candidate of each of its
submissions becomes the active and counted judging of the submission, and no
other is either. -/
structure Applies (s : Store) (q : Rejudging) (now : Instant) (operator : Option Int)
    (s' : Store) : Prop where
  promoted : ∀ r ∈ s.submissions, r.rejudgingId = some q.id →
    ∃ c ∈ s.judgings, c.submissionId = r.id ∧ c.rejudgingId = some q.id ∧
      { c with active := true, counted := true } ∈ s'.judgings ∧
      ∀ b ∈ s'.judgings, b.submissionId = r.id → b.id ≠ c.id →
        b.active = false ∧ b.counted = false
  others : ∀ r ∈ s.submissions, r.rejudgingId ≠ some q.id → ∀ j : Judging, j.submissionId = r.id →
    (j ∈ s'.judgings ↔ j ∈ s.judgings)
  /-- Nothing but these two flags changes of a judging, and none comes or
  goes. -/
  flags : ∀ b ∈ s'.judgings, ∃ a ∈ s.judgings,
    b = { a with active := b.active, counted := b.counted }
  kept : ∀ a ∈ s.judgings, ∃ b ∈ s'.judgings, b.id = a.id
  submissions : ∀ b, b ∈ s'.submissions ↔
    ∃ r ∈ s.submissions, b = if r.rejudgingId = some q.id then r.moved none else r
  rejudgings : ∀ p, p ∈ s'.rejudgings ↔
    p = q.decide true now operator ∨ p ∈ s.rejudgings ∧ p.id ≠ q.id
  counters : ∀ k, s'.statistics.counters k = s.statistics.counters k +
    s.submissions.total fun r =>
      if r.rejudgingId = some q.id ∧ countsAt k r = true then s.gain q.id r else 0
  /-- Everything else stays as it is. -/
  frame : s' = { s with
    judgings := s'.judgings
    submissions := s'.submissions
    rejudgings := s'.rejudgings
    statistics := s'.statistics }

variable {s : Store} {q : Rejudging} {now : Instant} {operator : Option Int}

/-- **The candidate of a submission** has the authority over it once its
rejudging is applied. -/
theorem Sound.exists_promoted (h : s.Sound) (he : s.Enrolled) (hq : q ∈ s.rejudgings)
    (hopen : q.applied = none) {r : Submission} (hr : r ∈ s.submissions)
    (hid : r.rejudgingId = some q.id) (now : Instant) (operator : Option Int) :
    ∃ c ∈ s.judgings, c.submissionId = r.id ∧ c.rejudgingId = some q.id ∧
      { c with active := true, counted := true } ∈ (s.applyRejudging q.id now operator).judgings ∧
      ∀ b ∈ (s.applyRejudging q.id now operator).judgings, b.submissionId = r.id → b.id ≠ c.id →
        b.active = false ∧ b.counted = false := by
  obtain ⟨c, hc, hsub, hcid⟩ := ((h.holdsCandidates he hq hopen).owner_iff r hr).mp hid
  have hholds : s.holds q.id r.id = true := holds_iff.mpr ⟨c, hc, hsub, hcid⟩
  refine ⟨c, hc, hsub, hcid, ?_, fun b hb hbsub hne => ?_⟩
  · have hcholds : s.holds q.id c.submissionId = true := hsub ▸ hholds
    refine mem_judgings_applyRejudging.mpr ⟨c, hc, ?_⟩
    rw [if_pos hcholds, Judging.settled, decide_eq_true hcid]
  · obtain ⟨a, ha, hba, hbid, hasub, -⟩ := exists_of_mem_apply hb
    have hasub : a.submissionId = r.id := hasub.symm.trans hbsub
    -- the submission has one candidate only
    have hacid : a.rejudgingId ≠ some q.id := by
      intro haid
      have hac := h.membership.candidate_eq q hq hopen a ha c hc haid hcid (hasub.trans hsub.symm)
      exact hne (hbid.trans (congrArg Judging.id hac))
    rw [hba, hasub, if_pos hholds, Judging.settled]
    exact ⟨decide_eq_false hacid, decide_eq_false hacid⟩

/-- **The judgings of other submissions** stay as they are. -/
theorem Sound.mem_apply_of_ne (h : s.Sound) (he : s.Enrolled) (hq : q ∈ s.rejudgings)
    (hopen : q.applied = none) {r : Submission} (hr : r ∈ s.submissions)
    (hid : r.rejudgingId ≠ some q.id) {j : Judging} (hj : j.submissionId = r.id) (now : Instant)
    (operator : Option Int) :
    j ∈ (s.applyRejudging q.id now operator).judgings ↔ j ∈ s.judgings := by
  have hholds : ¬ s.holds q.id r.id = true := by
    intro hholds
    exact hid (((h.holdsCandidates he hq hopen).owner_iff r hr).mpr (holds_iff.mp hholds))
  rw [mem_judgings_applyRejudging]
  constructor
  · rintro ⟨a, ha, rfl⟩
    have hsub : a.submissionId = r.id := by
      split at hj <;> exact hj
    rwa [hsub, if_neg hholds]
  · intro hmem
    exact ⟨j, hmem, by rw [hj, if_neg hholds]⟩

/-- **A store whose rejudging has been applied** and whose ledger is balanced
again. -/
theorem Sound.applies (h : s.Sound) (he : s.Enrolled) (hb : s.Balanced) (hq : q ∈ s.rejudgings)
    (hopen : q.applied = none)
    (hdone : ∀ j ∈ s.judgings, j.rejudgingId = some q.id → j.lifecycle = .finalized)
    {ds : List StatisticsDelta}
    (hb' : ((s.applyRejudging q.id now operator).mergeStatistics ds).Balanced) :
    s.Applies q now operator ((s.applyRejudging q.id now operator).mergeStatistics ds) := by
  refine ⟨fun r hr hid => h.exists_promoted he hq hopen hr hid now operator,
    fun r hr hid j hj => h.mem_apply_of_ne he hq hopen hr hid hj now operator, ?flags, ?kept,
    fun b => mem_release, ?rejudgings, fun k => ?counters, rfl⟩
  case flags =>
    intro b hb
    have hb : b ∈ (s.applyRejudging q.id now operator).judgings := hb
    obtain ⟨a, ha, rfl, -⟩ := exists_of_mem_apply hb
    refine ⟨a, ha, ?_⟩
    split <;> rfl
  case kept =>
    intro a ha
    obtain ⟨b, hmem, -, hid, -⟩ := exists_mem_apply ha q.id now operator
    exact ⟨b, hmem, hid⟩
  case rejudgings =>
    intro p
    refine mem_decided.trans (or_congr_left ⟨?_, fun heq => ⟨q, hq, rfl, heq⟩⟩)
    rintro ⟨p', hp', hid, rfl⟩
    rw [rejudging_eq hp' hq hid]
  case counters =>
    -- both ledgers are balanced, so the counters change as the tally does
    have htally : ((s.applyRejudging q.id now operator).mergeStatistics ds).tally k =
        (s.applyRejudging q.id now operator).tally k := rfl
    rw [hb' k, htally, h.tally_applyRejudging he hq hopen hdone, hb k]

end Store

namespace World

variable {w : World} {ctx : Context}

/-! ## What becomes of the request -/

/-- Asking for a rejudging that is not there answers so. -/
theorem answer_getRejudging_of_missing (hfaults : ctx.faults = .none) {id : Int}
    (h : w.store.rejudgings.find? id = none) :
    ((Operation.getRejudging id).perform ctx w).answer = .error (.notFound (.rejudging id)) := by
  have hrun : (Rejudge.get id).run w = (.error (.notFound (.rejudging id)), w) := by
    unfold Rejudge.get
    rw [Transaction.run_bind (Transaction.run_ask rfl), h]
    rfl
  rw [Operation.perform, transact_run_error hfaults hrun]

/-- **An application is refused or goes through**, as the rejudging stands. -/
theorem applyRejudging_cases (hfaults : ctx.faults = .none) (id : Int) (operator : Option Int) :
    (w.store.rejudgings.find? id = none ∧
      (Operation.applyRejudging id operator).perform ctx w =
        ⟨.error (.notFound (.rejudging id)), w, []⟩) ∨
    ∃ q ∈ w.store.rejudgings, q.id = id ∧
      (q.isOpen = false ∧ (Operation.applyRejudging id operator).perform ctx w =
          ⟨.error (.conflict (.alreadyDecided id q.state)), w, []⟩ ∨
        q.isOpen = true ∧ (Progress.ofCandidates (w.store.candidatesOf id)).todo ≠ 0 ∧
          (Operation.applyRejudging id operator).perform ctx w =
            ⟨.error (.conflict (.unfinished id
              (Progress.ofCandidates (w.store.candidatesOf id)).todo)), w, []⟩ ∨
        q.isOpen = true ∧ (Progress.ofCandidates (w.store.candidatesOf id)).todo = 0 ∧
          ∃ ds, (Operation.applyRejudging id operator).perform ctx w =
            ⟨.ok (q.decide true ctx.now operator),
              { w with
                store := (w.store.applyRejudging id ctx.now operator).mergeStatistics ds },
              []⟩) := by
  cases hfind : w.store.rejudgings.find? id with
  | none =>
    have hrun : (Rejudge.apply id operator ctx.now).run w = _ :=
      Transaction.run_bind_error (Rejudge.run_loadOpen_of_missing hfind)
    exact .inl ⟨rfl, transact_run_error hfaults hrun⟩
  | some q =>
    obtain ⟨hq, rfl⟩ := Table.find?_eq_some_iff.mp hfind
    refine .inr ⟨q, hq, rfl, ?_⟩
    cases hopen : q.isOpen with
    | false =>
      have hrun : (Rejudge.apply q.id operator ctx.now).run w = _ :=
        Transaction.run_bind_error (Rejudge.run_loadOpen_of_decided hq hopen)
      exact .inl ⟨rfl, transact_run_error hfaults hrun⟩
    | true =>
      have hundecided : q.applied = none := by
        rwa [Rejudging.isOpen, Option.isNone_iff_eq_none] at hopen
      by_cases htodo : (Progress.ofCandidates (w.store.candidatesOf q.id)).todo = 0
      · obtain ⟨ds, hrun⟩ := Rejudge.run_apply hq hundecided htodo operator ctx.now
        exact .inr (.inr ⟨rfl, htodo, ds, transact_run hfaults hrun⟩)
      · have hrun := Rejudge.run_apply_of_unfinished hq hundecided htodo operator ctx.now
        exact .inr (.inl ⟨rfl, htodo, transact_run_error hfaults hrun⟩)

/-- **Applying a rejudging.** It succeeds exactly if the rejudging is found,
open and without candidates to do. If it fails nothing has changed. If it
succeeds each candidate has the authority over its submission, the submissions
are free, the rejudging is decided, and the counters of every key have changed
by the gains of its submissions. -/
theorem applyRejudging_applies (h : w.Reachable) (hfaults : ctx.faults = .none) (id : Int)
    (operator : Option Int) :
    ((∃ p, ((Operation.applyRejudging id operator).perform ctx w).answer = .ok p) ↔
      ∃ details, ((Operation.getRejudging id).perform ctx w).answer = .ok details ∧
        details.rejudging.isOpen = true ∧ details.progress.todo = 0) ∧
    (∀ e, ((Operation.applyRejudging id operator).perform ctx w).answer = .error e →
      ((∃ what, e = .notFound what) ∨ ∃ cause, e = .conflict cause) ∧
      ((Operation.applyRejudging id operator).perform ctx w).world = w ∧
      ((Operation.applyRejudging id operator).perform ctx w).events = []) ∧
    ∀ p, ((Operation.applyRejudging id operator).perform ctx w).answer = .ok p →
      ∃ q ∈ w.store.rejudgings, q.id = id ∧ p = q.decide true ctx.now operator ∧
        w.store.Applies q ctx.now operator
          ((Operation.applyRejudging id operator).perform ctx w).world.store ∧
        ((Operation.applyRejudging id operator).perform ctx w).world.blobs = w.blobs ∧
        ((Operation.applyRejudging id operator).perform ctx w).events = [] := by
  have hreach := h.steps (Steps.refl.perform (.applyRejudging id operator) ctx)
  rcases applyRejudging_cases (w := w) hfaults id operator with ⟨hnone, hperform⟩ |
    ⟨q, hq, rfl, ⟨hclosed, hperform⟩ | ⟨hopen, htodo, hperform⟩ | ⟨hopen, htodo, ds, hperform⟩⟩
  · -- there is no such rejudging
    rw [hperform, answer_getRejudging_of_missing hfaults hnone]
    refine ⟨by simp, ?_, by simp⟩
    rintro e ⟨⟩
    exact ⟨.inl ⟨_, rfl⟩, rfl, rfl⟩
  · -- it has been decided
    rw [hperform, answer_getRejudging hfaults hq]
    refine ⟨by simp [hclosed], ?_, by simp⟩
    rintro e ⟨⟩
    exact ⟨.inr ⟨_, rfl⟩, rfl, rfl⟩
  · -- some candidate has not ended
    rw [hperform, answer_getRejudging hfaults hq]
    refine ⟨⟨by simp, ?_⟩, ?_, by simp⟩
    · rintro ⟨details, hdetails, -, hzero⟩
      cases hdetails
      exact absurd hzero htodo
    · rintro e ⟨⟩
      exact ⟨.inr ⟨_, rfl⟩, rfl, rfl⟩
  · have hundecided : q.applied = none := by
      rwa [Rejudging.isOpen, Option.isNone_iff_eq_none] at hopen
    have hdone : ∀ j ∈ w.store.judgings, j.rejudgingId = some q.id → j.lifecycle = .finalized := by
      rw [todo_ofCandidates] at htodo
      intro j hj hid
      exact Judging.isFinalized_iff.mp (Rejudge.isFinalized_of_candidate htodo hj hid)
    rw [hperform] at hreach
    -- the ledger after it is balanced, for requests keep it so
    have happlies := h.sound.applies h.enrolled h.balanced hq hundecided hdone hreach.balanced
    rw [hperform, answer_getRejudging hfaults hq]
    refine ⟨iff_of_true ⟨_, rfl⟩ ⟨_, rfl, hopen, htodo⟩, by simp, ?_⟩
    rintro p ⟨⟩
    exact ⟨q, hq, rfl, rfl, happlies, rfl, rfl⟩

/-! ## The small contest -/

/-- All candidates of the open rejudging have ended, accepted. -/
def contestRejudged : World :=
  ((contestRejudging.after (.reportRuns "host" 3 [⟨1, .accepted, 0, 0, []⟩])).after
    (.claimJudging "host")).after (.reportRuns "host" 4 [⟨1, .accepted, 0, 0, []⟩])

theorem reachable_contestRejudged : contestRejudged.Reachable :=
  ((reachable_contestRejudging.after _).after _).after _

/-- In the small contest one more submission is accepted once the rejudging is
applied. -/
theorem applies_contestRejudged :
    contestRejudged.Reachable ∧
      ∃ q ∈ contestRejudged.store.rejudgings, q.id = 1 ∧
        contestRejudged.store.heldBy q.id = 2 ∧
        contestRejudged.store.Applies q contestContext.now (some 7)
          (contestRejudged.after (.applyRejudging 1 (some 7))).store ∧
        contestRejudged.store.statistics.counters ⟨1, 1, 1⟩ = (2, 1) ∧
        (contestRejudged.after (.applyRejudging 1 (some 7))).store.statistics.counters ⟨1, 1, 1⟩ =
          (2, 2) := by
  have hfaults : contestContext.faults = .none := rfl
  have hready : (match
      ((Operation.getRejudging 1).perform contestContext contestRejudged).answer with
      | .ok details => details.rejudging.isOpen && decide (details.progress.todo = 0)
      | .error _ => false) = true := by decide +kernel
  have hbefore : contestRejudged.store.statistics.counters ⟨1, 1, 1⟩ = (2, 1) := by decide +kernel
  have hafter : (contestRejudged.after (.applyRejudging 1 (some 7))).store.statistics.counters
      ⟨1, 1, 1⟩ = (2, 2) := by decide +kernel
  have hheld : contestRejudged.store.heldBy 1 = 2 := by decide +kernel
  obtain ⟨hsucceeds, -, happlies⟩ :=
    applyRejudging_applies reachable_contestRejudged hfaults 1 (some 7)
  obtain ⟨p, hp⟩ := hsucceeds.mpr (by
    split at hready
    · next details hanswer =>
      rw [Bool.and_eq_true, decide_eq_true_eq] at hready
      exact ⟨details, hanswer, hready⟩
    · cases hready)
  obtain ⟨q, hq, hid, -, hstore, -, -⟩ := happlies p hp
  exact ⟨reachable_contestRejudged, q, hq, hid, hid ▸ hheld, hstore, hbefore, hafter⟩

end World

end JudgeQueue
