import JudgeQueue.Proofs.Change.View
/-!
# Sound stores

What the rows of a store owe each other. A judging that has ended has a
result or is abandoned, and only active judgings that have ended are counted.
A submission with judgings has one active judging. A rejudging knows its
submissions by their candidates. The conditions depend on each other, so they
are kept together.

That submissions know their rejudging in turn is a condition of its own: it
holds only if the supplied submissions come outside of any rejudging, and
nothing else depends on it.
-/

namespace JudgeQueue

namespace Judging

/-- The judging has a verdict, which is not that of an abandoned one. -/
def HasResult (j : Judging) : Prop :=
  ∃ v, j.verdict = some v ∧ v ≠ .undefinedError

/-- A judging agrees with itself: once it has ended it has a result, or it
speaks for nothing, and only active judgings that have ended are counted. -/
structure Ordered (j : Judging) : Prop where
  ended : j.lifecycle = .finalized → j.HasResult ∨ j.active = false ∧ j.rejudgingId = none
  counted : j.counted = true → j.active = true ∧ j.lifecycle = .finalized

end Judging

namespace Store

/-- Every submission with judgings has one that is active, and no second. -/
structure Authority (s : Store) : Prop where
  exists_active : ∀ j ∈ s.judgings,
    ∃ a ∈ s.judgings, a.submissionId = j.submissionId ∧ a.active = true
  active_eq : ∀ a ∈ s.judgings, ∀ b ∈ s.judgings,
    a.submissionId = b.submissionId → a.active = true → b.active = true → a = b

/-- A judging that another one stands in for. -/
def IsPrevious (s : Store) (j p : Judging) : Prop :=
  p ∈ s.judgings ∧ p.id ≠ j.id ∧ p.submissionId = j.submissionId ∧ j.previousJudgingId = some p.id

/-- Rejudgings, their candidates and the submissions of these belong
together. -/
structure Membership (s : Store) : Prop where
  exists_rejudging : ∀ j ∈ s.judgings, ∀ id, j.rejudgingId = some id →
    ∃ q ∈ s.rejudgings, q.id = id
  candidate : ∀ q ∈ s.rejudgings, q.applied = none → ∀ j ∈ s.judgings, j.rejudgingId = some q.id →
    j.active = false ∧ (∃ p, s.IsPrevious j p) ∧
      ∃ r ∈ s.submissions, r.id = j.submissionId ∧ r.rejudgingId = some q.id
  candidate_eq : ∀ q ∈ s.rejudgings, q.applied = none → ∀ i ∈ s.judgings, ∀ j ∈ s.judgings,
    i.rejudgingId = some q.id → j.rejudgingId = some q.id → i.submissionId = j.submissionId → i = j
  decided : ∀ q ∈ s.rejudgings, ∀ applied, q.applied = some applied → ∀ j ∈ s.judgings,
    j.rejudgingId = some q.id → j.lifecycle = .finalized ∧ (applied = false → j.active = false)

/-- A submission that says it is in a rejudging has a candidate there, and
the rejudging is open and of its contest. -/
def Enrolled (s : Store) : Prop :=
  ∀ r ∈ s.submissions, ∀ id, r.rejudgingId = some id →
    ∃ q ∈ s.rejudgings, q.id = id ∧ q.applied = none ∧ r.contestId = q.contestId ∧
      ∃ j ∈ s.judgings, j.submissionId = r.id ∧ j.rejudgingId = some id

/-- Every run has a verdict that runs have. -/
def RunsGraded (s : Store) : Prop :=
  ∀ n ∈ s.runs, n.verdict.isRunVerdict = true

/-- The rows of the store belong together. -/
structure Sound (s : Store) : Prop where
  numbered : s.Numbered
  ordered : ∀ j ∈ s.judgings, j.Ordered
  authority : s.Authority
  membership : s.Membership
  runs : s.RunsGraded

variable {s : Store}

/-! ## What follows at once -/

namespace Sound

/-- A judging that has not ended is not counted. -/
theorem counted_of_not_finalized (h : s.Sound) {j : Judging} (hj : j ∈ s.judgings)
    (hl : j.lifecycle ≠ .finalized) : j.counted = false := by
  by_contra hc
  exact hl ((h.ordered j hj).counted (by simpa using hc)).2

/-- An active judging that has ended has a result. -/
theorem hasResult_of_active (h : s.Sound) {j : Judging} (hj : j ∈ s.judgings)
    (ha : j.active = true) (hl : j.lifecycle = .finalized) : j.HasResult := by
  rcases (h.ordered j hj).ended hl with hr | ⟨hf, -⟩
  · exact hr
  · rw [ha] at hf
    cases hf

/-- A candidate that has ended has a result. -/
theorem hasResult_of_candidate (h : s.Sound) {j : Judging} (hj : j ∈ s.judgings) {id : Int}
    (hid : j.rejudgingId = some id) (hl : j.lifecycle = .finalized) : j.HasResult := by
  rcases (h.ordered j hj).ended hl with hr | ⟨-, hf⟩
  · exact hr
  · rw [hid] at hf
    cases hf

/-- The submission of a candidate in an open rejudging is in that
rejudging. -/
theorem rejudgingId_of_candidate (h : s.Sound) {q : Rejudging} (hq : q ∈ s.rejudgings)
    (hopen : q.applied = none) {j : Judging} (hj : j ∈ s.judgings)
    (hid : j.rejudgingId = some q.id) {r : Submission} (hr : r ∈ s.submissions)
    (hsub : r.id = j.submissionId) : r.rejudgingId = some q.id := by
  obtain ⟨-, -, r', hr', hsub', hid'⟩ := h.membership.candidate q hq hopen j hj hid
  rw [submission_eq hr hr' (hsub.trans hsub'.symm), hid']

/-- **A submission has candidates in one open rejudging at most.** -/
theorem open_rejudging_eq (h : s.Sound) {q q' : Rejudging} (hq : q ∈ s.rejudgings)
    (hq' : q' ∈ s.rejudgings) (hopen : q.applied = none) (hopen' : q'.applied = none)
    {i j : Judging} (hi : i ∈ s.judgings) (hj : j ∈ s.judgings) (hqi : i.rejudgingId = some q.id)
    (hqj : j.rejudgingId = some q'.id) (hsub : i.submissionId = j.submissionId) : q = q' := by
  obtain ⟨r, hr, hri⟩ := h.numbered.owned i hi
  have hid := h.rejudgingId_of_candidate hq hopen hi hqi hr hri
  have hid' := h.rejudgingId_of_candidate hq' hopen' hj hqj hr (hri.trans hsub)
  exact rejudging_eq hq hq' (Option.some.inj (hid.symm.trans hid'))

/-- The candidate of an open rejudging is not what another candidate stands
in for. -/
theorem not_candidate_of_isPrevious (h : s.Sound) {q q' : Rejudging} (hq : q ∈ s.rejudgings)
    (hq' : q' ∈ s.rejudgings) (hopen : q.applied = none) (hopen' : q'.applied = none)
    {j p : Judging} (hj : j ∈ s.judgings) (hqj : j.rejudgingId = some q.id)
    (hp : s.IsPrevious j p) : p.rejudgingId ≠ some q'.id := by
  intro hqp
  obtain ⟨hmem, hne, hsub, -⟩ := hp
  have hsame := h.open_rejudging_eq hq hq' hopen hopen' hj hmem hqj hqp hsub.symm
  rw [← hsame] at hqp
  exact hne (congrArg Judging.id (h.membership.candidate_eq q hq hopen p hmem j hj hqp hqj hsub))

end Sound

end Store

end JudgeQueue
