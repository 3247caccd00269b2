import JudgeQueue.Proofs.Reachable.Basic
import JudgeQueue.Proofs.Transaction.Run
/-!
# Reachable worlds — rejudgings

A rejudging is linked to its submissions twice, by what the submissions say
and by the candidates. While it is open the two links tell the same, so its
progress is that of its submissions; once it is decided no submission is held
by it, and what is left of its candidates has ended.
-/

namespace JudgeQueue

namespace Store

/-- A rejudging that is open has just one candidate for each of its
submissions, not yet in force and beside another judging. -/
structure HoldsCandidates (s : Store) (q : Rejudging) : Prop where
  owner_iff : ∀ r ∈ s.submissions, r.rejudgingId = some q.id ↔
    ∃ j ∈ s.judgings, j.submissionId = r.id ∧ j.rejudgingId = some q.id
  unique : ∀ r ∈ s.submissions, r.rejudgingId = some q.id →
    ∃! j, j ∈ s.judgings ∧ j.submissionId = r.id ∧ j.rejudgingId = some q.id
  contest : ∀ r ∈ s.submissions, r.rejudgingId = some q.id → r.contestId = q.contestId
  candidate : ∀ j ∈ s.judgings, j.rejudgingId = some q.id → j.active = false ∧ j.counted = false ∧
    ∃ p ∈ s.judgings, p ≠ j ∧ p.submissionId = j.submissionId ∧ j.previousJudgingId = some p.id

/-- A rejudging that is decided holds no submissions, and what is left of its
candidates has ended with a result. -/
structure LeavesHistory (s : Store) (q : Rejudging) : Prop where
  released : ∀ r ∈ s.submissions, r.rejudgingId ≠ some q.id
  ended : ∀ j ∈ s.judgings, j.rejudgingId = some q.id → j.lifecycle = .finalized ∧ j.HasResult
  inactive : q.applied = some false → ∀ j ∈ s.judgings, j.rejudgingId = some q.id →
    j.active = false

/-- How many submissions a rejudging holds. -/
def heldBy (s : Store) (id : Int) : Nat :=
  s.submissions.rows.countP fun r => r.rejudgingId = some id

variable {s : Store} {q : Rejudging}

theorem Sound.holdsCandidates (h : s.Sound) (he : s.Enrolled) (hq : q ∈ s.rejudgings)
    (hopen : q.applied = none) : s.HoldsCandidates q where
  owner_iff r hr := by
    constructor
    · intro hid
      obtain ⟨-, -, -, -, -, howner⟩ := he r hr q.id hid
      exact howner
    · rintro ⟨j, hj, hsub, hid⟩
      exact h.rejudgingId_of_candidate hq hopen hj hid hr hsub.symm
  unique r hr hid := by
    obtain ⟨-, -, -, -, -, j, hj, hsub, hjid⟩ := he r hr q.id hid
    refine ⟨j, ⟨hj, hsub, hjid⟩, ?_⟩
    rintro i ⟨hi, hisub, hiid⟩
    exact h.membership.candidate_eq q hq hopen i hi j hj hiid hjid (hisub.trans hsub.symm)
  contest r hr hid := by
    obtain ⟨p, hp, hpid, -, hcontest, -⟩ := he r hr q.id hid
    rw [rejudging_eq hp hq hpid] at hcontest
    exact hcontest
  candidate j hj hid := by
    obtain ⟨hact, ⟨p, hp, hne, hsub, hprev⟩, -⟩ := h.membership.candidate q hq hopen j hj hid
    have hcounted : j.counted = false := by
      by_contra hc
      have hactive := ((h.ordered j hj).counted (by simpa using hc)).1
      rw [hact] at hactive
      cases hactive
    exact ⟨hact, hcounted, p, hp, fun heq => hne (congrArg Judging.id heq), hsub, hprev⟩

theorem Sound.leavesHistory (h : s.Sound) (he : s.Enrolled) (hq : q ∈ s.rejudgings)
    {applied : Bool} (hdecided : q.applied = some applied) : s.LeavesHistory q where
  released r hr hid := by
    obtain ⟨p, hp, hpid, hopen, -⟩ := he r hr q.id hid
    rw [rejudging_eq hp hq hpid, hdecided] at hopen
    cases hopen
  ended j hj hid := by
    have hl := (h.membership.decided q hq applied hdecided j hj hid).1
    exact ⟨hl, h.hasResult_of_candidate hj hid hl⟩
  inactive hcancelled j hj hid := by
    rw [hdecided] at hcancelled
    exact (h.membership.decided q hq applied hdecided j hj hid).2 (Option.some.inj hcancelled)

/-! ## Progress -/

/-- The three numbers of a progress add up to all candidates. -/
theorem progress_ofCandidates (candidates : List Judging) :
    (Progress.ofCandidates candidates).queued + (Progress.ofCandidates candidates).claimed +
      (Progress.ofCandidates candidates).finalized = candidates.length := by
  unfold Progress.ofCandidates
  simp only
  induction candidates with
  | nil => rfl
  | cons j rest ih =>
    rw [List.countP_cons, List.countP_cons, List.countP_cons, List.length_cons]
    cases hl : j.lifecycle <;>
      simp only [Judging.isQueued, Judging.isClaimed, Judging.isFinalized, hl] at ih ⊢ <;>
      simp <;> omega

/-- **An open rejudging has as many candidates as submissions.** -/
theorem Sound.length_candidates (h : s.Sound) (he : s.Enrolled) (hq : q ∈ s.rejudgings)
    (hopen : q.applied = none) :
    (s.judgings.filter (JudgingFilter.ofRejudging q.id).admits).length = s.heldBy q.id := by
  have hcount : (s.judgings.filter (JudgingFilter.ofRejudging q.id).admits).length =
      s.judgings.rows.countP (JudgingFilter.ofRejudging q.id).admits :=
    List.countP_eq_length_filter.symm
  rw [hcount]
  refine Table.countP_eq_of_points Judging.submissionId (fun i hi j hj hid hjd hsub => ?_)
    fun id => ?_
  · rw [Rejudge.admits_ofRejudging, decide_eq_true_eq] at hid hjd
    exact h.membership.candidate_eq q hq hopen i hi j hj hid hjd hsub
  · simp only [Rejudge.admits_ofRejudging, decide_eq_true_eq]
    constructor
    · rintro ⟨j, hj, hid, rfl⟩
      obtain ⟨r, hr, hsub⟩ := h.numbered.owned j hj
      exact ⟨r, hr, h.rejudgingId_of_candidate hq hopen hj hid hr hsub, hsub⟩
    · rintro ⟨r, hr, hid, rfl⟩
      obtain ⟨j, hj, hsub, hjid⟩ := ((h.holdsCandidates he hq hopen).owner_iff r hr).mp hid
      exact ⟨j, hj, hjid, hsub⟩

end Store

namespace World

variable {w : World} {q : Rejudging}

/-- Asking for a rejudging answers it with the progress of its candidates. -/
theorem answer_getRejudging {ctx : Context} (hfaults : ctx.faults = .none)
    (hq : q ∈ w.store.rejudgings) :
    ((Operation.getRejudging q.id).perform ctx w).answer =
      .ok ⟨q, .ofCandidates (w.store.judgings.filter (JudgingFilter.ofRejudging q.id).admits)⟩ := by
  have hfind : w.store.rejudgings.find? q.id = some q := Table.find?_key hq
  have hrun : (Rejudge.get q.id).run w = (.ok (.commit ⟨q, .ofCandidates
      (w.store.judgings.filter (JudgingFilter.ofRejudging q.id).admits)⟩ []), w) := by
    unfold Rejudge.get
    rw [Transaction.run_bind (Transaction.run_ask rfl), hfind]
    rfl
  rw [Operation.perform, transact_run hfaults hrun]

/-- **Rejudging membership.** An open rejudging of a reachable world and its
submissions point at each other through its candidates, one for each of
them, and its progress adds up to its submissions. A decided one holds none,
and what is left of its candidates has ended. -/
theorem rejudging_membership (h : w.Reachable) (hq : q ∈ w.store.rejudgings) :
    (q.applied = none → w.store.HoldsCandidates q ∧
      ∀ ctx : Context, ctx.faults = .none → ∃ progress,
        ((Operation.getRejudging q.id).perform ctx w).answer = .ok ⟨q, progress⟩ ∧
          progress.queued + progress.claimed + progress.finalized = w.store.heldBy q.id) ∧
    (q.applied ≠ none → w.store.LeavesHistory q) := by
  have hs := h.sound
  have he := h.enrolled
  constructor
  · intro hopen
    refine ⟨hs.holdsCandidates he hq hopen,
      fun ctx hfaults => ⟨_, answer_getRejudging hfaults hq, ?_⟩⟩
    rw [Store.progress_ofCandidates, hs.length_candidates he hq hopen]
  · intro hdecided
    obtain ⟨applied, happlied⟩ := Option.ne_none_iff_exists'.mp hdecided
    exact hs.leavesHistory he hq happlied

/-- The small contest has two rejudgings: an open one, which holds both
submissions, and a cancelled one. -/
theorem rejudgings_contestRejudging :
    contestRejudging.Reachable ∧
      (∃ q ∈ contestRejudging.store.rejudgings, q.applied = none ∧
        contestRejudging.store.HoldsCandidates q ∧ contestRejudging.store.heldBy q.id = 2) ∧
      ∃ q ∈ contestRejudging.store.rejudgings, q.applied = some false ∧
        contestRejudging.store.LeavesHistory q := by
  have hreach := reachable_contestRejudging
  have hopen : ∃ q ∈ contestRejudging.store.rejudgings.rows,
      q.applied = none ∧ contestRejudging.store.heldBy q.id = 2 := by decide +kernel
  have hcancelled : ∃ q ∈ contestRejudging.store.rejudgings.rows, q.applied = some false := by
    decide +kernel
  obtain ⟨q, hq, hqopen, hheld⟩ := hopen
  obtain ⟨p, hp, hpdecided⟩ := hcancelled
  refine ⟨hreach, ⟨q, hq, hqopen, ?_, hheld⟩, p, hp, hpdecided, ?_⟩
  · exact ((rejudging_membership hreach hq).1 hqopen).1
  · exact (rejudging_membership hreach hp).2 (by rw [hpdecided]; decide)

end World

end JudgeQueue
