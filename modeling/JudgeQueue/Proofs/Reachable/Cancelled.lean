import JudgeQueue.Proofs.Reachable.Membership
import JudgeQueue.Proofs.Reachable.Shape
import JudgeQueue.Proofs.Recovery.Cancel
/-!
# Reachable worlds — rejudgings that are cancelled

Cancelling a rejudging leaves nothing behind that later requests could trip
over, whatever they are: its submissions are free for good, its candidates
never come into force, the ids of those that are gone are not used again, and
what judgehosts still report on those that were held is ignored.
-/

namespace JudgeQueue

namespace World

variable {w w' : World} {q : Rejudging}

/-! ## Along requests -/

/-- **A rejudging that has been decided** stays as it is. -/
theorem Steps.rejudging_eq (h : w.Steps w') (hs : w.store.OnCourse) (hq : q ∈ w.store.rejudgings)
    (hdecided : q.applied ≠ none) {p : Rejudging} (hp : p ∈ w'.store.rejudgings)
    (hid : p.id = q.id) : p = q := by
  obtain ⟨⟨es, hunfolds⟩, -⟩ := h.unfolds hs
  have hle : p.id ≤ w.store.lastRejudging := hid ▸ hs.sound.numbered.rejudging_le q hq
  obtain ⟨a, ha, hfollows⟩ := hunfolds.rejudgings.old p hp hle
  have hkey : a.id = p.id := Lineage.key_eq hfollows
  have haq : a = q := Store.rejudging_eq ha hq (hkey.trans hid)
  subst haq
  exact hfollows.decided hdecided

/-- An id that has been drawn and is not in use stays so. -/
theorem Steps.ne_of_missing (h : w.Steps w') (hs : w.store.OnCourse) {id : Int}
    (hdrawn : id ≤ w.store.lastJudging) (hmissing : ∀ j ∈ w.store.judgings, j.id ≠ id) :
    ∀ j ∈ w'.store.judgings, j.id ≠ id := by
  intro j hj heq
  obtain ⟨⟨es, hunfolds⟩, -⟩ := h.unfolds hs
  have hle : j.id ≤ w.store.lastJudging := heq ▸ hdrawn
  obtain ⟨i, hi, hfollows⟩ := hunfolds.judgings.grows.old j hj hle
  exact hmissing i hi (hfollows.id.symm.trans heq)

/-- A judging that no rejudging will drop is still there. -/
theorem Steps.exists_stays (h : w.Steps w') (hs : w.store.OnCourse) (hg : w.store.Graded)
    {j : Judging} (hj : j ∈ w.store.judgings) (hstays : w.store.Stays j) :
    ∃ j' ∈ w'.store.judgings, j'.id = j.id ∧ w'.store.Stays j' := by
  induction h with
  | refl => exact ⟨j, hj, rfl, hstays⟩
  | perform h op ctx ih =>
    have hcourse := (h.unfolds hs).2
    refine hcourse.keeps_trace (P := fun s => ∃ j' ∈ s.judgings, j'.id = j.id ∧ s.Stays j')
      (fun hs _ _ ht hp => ?_) (h.graded hs.sound hg) (perform_trace op ctx hcourse.sound) ih
    obtain ⟨i, hi, hid, hstays⟩ := hp
    obtain ⟨i', hi', hid', -, hstays'⟩ := hs.exists_stays ht hi hstays
    exact ⟨i', hi', hid'.trans hid, hstays'⟩

/-- A judging that has ended, and that no rejudging will drop, is there for
good. -/
theorem Steps.exists_ended (h : w.Steps w') (hs : w.store.OnCourse) (hg : w.store.Graded)
    {j : Judging} (hj : j ∈ w.store.judgings) (hstays : w.store.Stays j)
    (hl : j.lifecycle = .finalized) :
    ∃ j' ∈ w'.store.judgings, j'.id = j.id ∧ j'.lifecycle = .finalized := by
  obtain ⟨j', hj', hid, -⟩ := h.exists_stays hs hg hj hstays
  obtain ⟨⟨es, hunfolds⟩, -⟩ := h.unfolds hs
  obtain ⟨hfollows, -⟩ := hunfolds.judgings.row hj (hs.sound.numbered.judging_le j hj) hj' hid
  refine ⟨j', hj', hid, ?_⟩
  rw [hfollows.ended hl]
  exact hl

/-! ## A rejudging that is cancelled -/

section Cancelled

variable (h : w.Reachable) (hq : q ∈ w.store.rejudgings) (hcancelled : q.applied = some false)
variable (hs : w.Steps w')

include h hq hcancelled hs

/-- It is cancelled for good. -/
theorem applied_of_cancelled {p : Rejudging} (hp : p ∈ w'.store.rejudgings) (hid : p.id = q.id) :
    p.applied = some false := by
  have hdecided : q.applied ≠ none := by
    rw [hcancelled]
    exact Option.some_ne_none false
  rw [hs.rejudging_eq h.arises.onCourse hq hdecided hp hid, hcancelled]

/-- **It holds no submissions.** -/
theorem released_of_cancelled {r : Submission} (hr : r ∈ w'.store.submissions) :
    r.rejudgingId ≠ some q.id := by
  intro hid
  obtain ⟨p, hp, hpid, hopen, -⟩ := (h.steps hs).enrolled r hr q.id hid
  rw [applied_of_cancelled h hq hcancelled hs hp hpid] at hopen
  cases hopen

/-- **What is left of its candidates** has ended and is not active. -/
theorem ended_of_cancelled {j : Judging} (hj : j ∈ w'.store.judgings)
    (hid : j.rejudgingId = some q.id) : j.lifecycle = .finalized ∧ j.active = false := by
  have hm := (h.steps hs).sound.membership
  obtain ⟨p, hp, hpid⟩ := hm.exists_rejudging j hj q.id hid
  have happlied := applied_of_cancelled h hq hcancelled hs hp hpid
  obtain ⟨hl, hinactive⟩ := hm.decided p hp false happlied j hj (hpid ▸ hid)
  exact ⟨hl, hinactive rfl⟩

/-- **What was ever a candidate** is neither active nor counted. -/
theorem silent_of_cancelled {w₀ : World} (h₀ : w₀.Arises) (hs₀ : w₀.Steps w') {c j : Judging}
    (hc : c ∈ w₀.store.judgings) (hid : c.rejudgingId = some q.id) (hj : j ∈ w'.store.judgings)
    (hjc : j.id = c.id) : j.active = false ∧ j.counted = false := by
  have hcourse := (h.steps hs).arises.onCourse
  obtain ⟨-, hgrows⟩ := hs₀.linked h₀.onCourse h₀.graded h₀.linked
  have hle : j.id ≤ w₀.store.lastJudging := hjc ▸ h₀.sound.numbered.judging_le c hc
  obtain ⟨i, hi, hpasses⟩ := hgrows.old j hj hle
  have hic : i = c := Store.judging_eq hi hc (hpasses.id.symm.trans hjc)
  subst hic
  -- it is a candidate still, or it has been abandoned since
  rcases hpasses.links with ⟨hrej, -⟩ | ⟨hv, -⟩
  · have hinactive := (ended_of_cancelled h hq hcancelled hs hj (hrej.trans hid)).2
    refine ⟨hinactive, ?_⟩
    by_contra hcounted
    have hactive := ((hcourse.sound.ordered j hj).counted (by simpa using hcounted)).1
    rw [hinactive] at hactive
    cases hactive
  · exact hcourse.not_active_of_abandoned hj hv

end Cancelled

/-- What is left of a rejudging `q` in a later world, once it has been cancelled in
the world `w`. -/
structure LeavesNoOrphans (w : World) (q : Rejudging) (w' : World) : Prop where
  released : ∀ r ∈ w'.store.submissions, r.rejudgingId ≠ some q.id
  ended : ∀ j ∈ w'.store.judgings, j.rejudgingId = some q.id → j.lifecycle = .finalized
  /-- Of the candidates that there were at any time none comes into force. -/
  silent : ∀ w₀ : World, w₀.Arises → w₀.Steps w' → ∀ c ∈ w₀.store.judgings,
    c.rejudgingId = some q.id → ∀ j ∈ w'.store.judgings, j.id = c.id →
      j.active = false ∧ j.counted = false
  deleted : ∀ d ∈ w.store.judgings, d.rejudgingId = some q.id → d.lifecycle = .queued →
    ∀ j ∈ w'.store.judgings, j.id ≠ d.id ∧ j.previousJudgingId ≠ some d.id
  /-- Reports on candidates that were held are ignored. -/
  late : ∀ c ∈ w.store.judgings, c.rejudgingId = some q.id → c.lifecycle = .claimed →
    ∀ ctx : Context, ctx.faults = .none → ∀ hostname,
      (∀ success output, (Operation.reportCompilation hostname c.id success output).perform ctx w' =
        ⟨.ok none, { w' with store := w'.store.touchJudgehost hostname ctx.now }, []⟩) ∧
      ∀ reports : List RunReport, (∀ p ∈ reports, p.verdict.isRunVerdict = true) →
        (Operation.reportRuns hostname c.id reports).perform ctx w' =
          ⟨.ok none, { w' with store := w'.store.touchJudgehost hostname ctx.now }, []⟩

/-- **Later worlds** hold no orphans of a rejudging that has been cancelled. -/
theorem leavesNoOrphans (h : w.Reachable) {w₁ : World} (hstep : w.Steps w₁) {now : Instant}
    {operator : Option Int} (hcancels : w.store.Cancels q now operator w₁.store)
    (hs : w₁.Steps w') : w.LeavesNoOrphans q w' := by
  have h₁ := h.steps hstep
  have hq : q.decide false now operator ∈ w₁.store.rejudgings :=
    (hcancels.rejudgings _).mpr (.inl rfl)
  refine ⟨fun r hr => released_of_cancelled h₁ hq rfl hs hr,
    fun j hj hid => (ended_of_cancelled h₁ hq rfl hs hj hid).1,
    fun w₀ h₀ hs₀ c hc hid j hj hjc => silent_of_cancelled h₁ hq rfl hs h₀ hs₀ hc hid hj hjc,
    ?deleted, ?late⟩
  case deleted =>
    intro d hd hid hl j hj
    have hle : d.id ≤ w₁.store.lastJudging := by
      rw [hcancels.frame]
      exact h.sound.numbered.judging_le d hd
    have hgone := hs.ne_of_missing h₁.arises.onCourse hle (hcancels.deleted d hd hid hl)
    refine ⟨hgone j hj, fun hprev => ?_⟩
    -- what a judging stands in for is there
    obtain ⟨p, hp, hpid, -⟩ := ((h₁.steps hs).arises.linked j hj).previous d.id hprev
    exact hgone p hp hpid
  case late =>
    intro c hc hid hl ctx hfaults hostname
    have hleft : c.abandonedAt now ∈ w₁.store.judgings :=
      (hcancels.judgings _).mpr (.inl ⟨c, hc, hid, hl, rfl⟩)
    have hstays : w₁.store.Stays (c.abandonedAt now) := fun _ _ _ hnone => by cases hnone
    obtain ⟨j, hj, hjc, hended⟩ :=
      hs.exists_ended h₁.arises.onCourse h₁.graded hleft hstays rfl
    have hheld : j.isClaimedBy hostname = false := by
      rw [Judging.isClaimedBy, Judging.isClaimed, hended]
      rfl
    have hjc : j.id = c.id := hjc
    rw [← hjc]
    refine ⟨fun success output => ?_, fun reports hverdict => ?_⟩
    · exact transact_run hfaults
        (Dispatch.run_reportCompilation_of_not_held hj hheld success output ctx.now)
    · exact transact_run hfaults
        (Grading.run_reportRuns_of_not_held hj hheld hverdict ctx.now)

/-- **Cancelling leaves no orphans.** Cancelling an open rejudging of a
reachable world removes its queued candidates, abandons those that are held,
frees its submissions and changes nothing else, and it answers what it did. From
then on, whatever is requested, nothing is held by the rejudging and none of
its candidates comes into force. -/
theorem cancelRejudging_cancels (h : w.Reachable) {ctx : Context} (hfaults : ctx.faults = .none)
    (hq : q ∈ w.store.rejudgings) (hopen : q.applied = none) (operator : Option Int) :
    ((Operation.cancelRejudging q.id operator).perform ctx w).answer =
      .ok ⟨q.decide false ctx.now operator, (w.store.candidatesIn q.id .queued).length,
        (w.store.candidatesIn q.id .claimed).map Judging.id⟩ ∧
    ((Operation.cancelRejudging q.id operator).perform ctx w).events =
      (w.store.candidatesIn q.id .claimed).map Judging.finished ∧
    ((Operation.cancelRejudging q.id operator).perform ctx w).world.blobs = w.blobs ∧
    w.store.Cancels q ctx.now operator
      ((Operation.cancelRejudging q.id operator).perform ctx w).world.store ∧
    ∀ w', ((Operation.cancelRejudging q.id operator).perform ctx w).world.Steps w' →
      w.LeavesNoOrphans q w' := by
  have hperform : (Operation.cancelRejudging q.id operator).perform ctx w = _ :=
    transact_run hfaults (Rejudge.run_cancel hq hopen operator ctx.now)
  have hstep : w.Steps ((Operation.cancelRejudging q.id operator).perform ctx w).world :=
    Steps.refl.perform _ ctx
  rw [hperform] at hstep ⊢
  have hcancels := h.arises.onCourse.cancels h.graded hq hopen ctx.now operator
  exact ⟨rfl, rfl, rfl, hcancels, fun w' hs => leavesNoOrphans h hstep hcancels hs⟩

/-- In the small contest, cancelling the open rejudging removes one candidate
and abandons another. The submissions are rejudged at once afterwards, and the
rejudging has left no orphans. -/
theorem cancels_contestRejudging :
    contestRejudging.Reachable ∧ contestContext.faults = .none ∧
      ∃ q ∈ contestRejudging.store.rejudgings, q.id = 1 ∧ q.applied = none ∧
        ((Operation.cancelRejudging q.id none).perform contestContext contestRejudging).answer =
          .ok ⟨q.decide false contestContext.now none, 1, [3]⟩ ∧
        contestRejudging.store.Cancels q contestContext.now none
          (contestRejudging.after (.cancelRejudging q.id none)).store ∧
        contestRejudging.LeavesNoOrphans q
          ((contestRejudging.after (.cancelRejudging q.id none)).after
            (.batchRejudge { contestId := 1 } none false)) := by
  have hreach := reachable_contestRejudging
  have hfaults : contestContext.faults = .none := rfl
  have hone : ∃ q ∈ contestRejudging.store.rejudgings.rows, q.id = 1 ∧ q.applied = none := by
    decide +kernel
  have hqueued : (contestRejudging.store.candidatesIn 1 .queued).length = 1 := by decide +kernel
  have hclaimed : (contestRejudging.store.candidatesIn 1 .claimed).map Judging.id = [3] := by
    decide +kernel
  obtain ⟨q, hq, hid, hopen⟩ := hone
  obtain ⟨hanswer, -, -, hcancels, hlater⟩ :=
    cancelRejudging_cancels hreach hfaults hq hopen none
  rw [hid, hqueued, hclaimed, ← hid] at hanswer
  exact ⟨hreach, hfaults, q, hq, hid, hopen, hanswer, hcancels,
    hlater _ (Steps.refl.perform (.batchRejudge { contestId := 1 } none false) contestContext)⟩

end World

end JudgeQueue
