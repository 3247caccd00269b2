import JudgeQueue.Proofs.Sound.Decide
import JudgeQueue.Proofs.Sound.Rejudging
/-!
# Sound stores — what every change keeps

Soundness is kept by every change of the store, and so by every trace. Three
more facts are read off the same changes: submissions that know their
rejudging do so after the change, a submission that has judgings keeps some,
and a judging that waits to be counted after a change did so
before it, or the change tells of its end.
-/

namespace JudgeQueue

/-- The event that tells of the end of a judging. -/
def Judging.finished (j : Judging) : Event :=
  .judgingFinished j.id j.submissionId

/-- The judging is active and has ended, and the statistics do not include
it. -/
structure Judging.AwaitsCount (j : Judging) : Prop where
  active : j.active = true
  ended : j.lifecycle = .finalized
  uncounted : j.counted = false

/-- A judging that has been flagged does not wait. -/
theorem Judging.not_awaitsCount_flagged (j : Judging) : ¬ j.flagged.AwaitsCount := by
  intro hawaits
  have hcounted : j.flagged.counted = true := by
    rw [Judging.flagged, Bool.or_eq_true, Bool.and_eq_true, Judging.isFinalized_iff]
    exact .inr ⟨hawaits.active, hawaits.ended⟩
  rw [hawaits.uncounted] at hcounted
  cases hcounted

namespace Store

/-- Every judging that waits to be counted did so before, or is told of. -/
def Announces (s : Store) (es : List Event) (s' : Store) : Prop :=
  ∀ j' ∈ s'.judgings, j'.AwaitsCount →
    (∃ j ∈ s.judgings, j.AwaitsCount ∧ j.finished = j'.finished) ∨ j'.finished ∈ es

/-- Submissions that have judgings keep some. -/
def KeepsOwners (s s' : Store) : Prop :=
  ∀ j ∈ s.judgings, ∃ j' ∈ s'.judgings, j'.submissionId = j.submissionId

variable {now : Instant} {s s' s₁ : Store} {es fs : List Event}

/-! ## Soundness -/

/-- **Rejudging submissions one after another** leaves the store sound. -/
theorem Sound.rejudged {ds : List StatisticsDelta} (h : s.Sound) (hr : Rejudged s ds s') :
    s'.Sound := by
  induction hr with
  | none => exact h
  | next hr _ _ _ _ ih => exact ih (h.rejudge hr _)

/-- **Every change keeps the store sound.** -/
theorem Sound.change (h : s.Sound) (hc : Change now s es s') : s'.Sound := by
  cases hc with
  | addJudgehost | touchJudgehost | switchJudgehost | switchProblem | switchLanguage | raise
  | close =>
    exact h.of_eq rfl rfl rfl rfl rfl h.runs
  | removeTestcase ht hidle =>
    exact h.of_eq rfl rfl rfl rfl rfl fun n hn => h.runs n (Table.mem_keep.mp hn).1
  | enqueue hr hidle => exact h.enqueue hr hidle _
  | claim hhost hj => exact (advances_handOut hj _ now).sound h h.runs
  | putBack hj => exact (advances_putBack (mem_of_nextDispatchable hj).1).sound h h.runs
  | compile hj hheld success output =>
    exact (advances_compile hj (Judging.lifecycle_of_isClaimedBy hheld) success output now).sound h
      h.runs
  | grade hj hheld hr hsub hverdict _ _ _ =>
    exact (advances_grade hverdict h.runs hj (Judging.lifecycle_of_isClaimedBy hheld) _ now).sound h
      (runsGraded_recordRuns hverdict h.runs _ now)
  | requeue hj hheld _ => exact h.requeue hj (Judging.isClaimed_iff.mp hheld) now
  | rejudge hr _ =>
    exact (h.rejudged hr).of_eq rfl rfl rfl rfl rfl (h.rejudged hr).runs
  | openRejudging new => exact h.openRejudging new now
  | propose hq hopen hr hfree hcontest hj hsub _ fullTest =>
    exact h.propose hq hopen hr hfree hj hsub fullTest
  | apply hq hopen hdone operator _ =>
    have happ := h.apply hq hopen
      (fun j hj hid => Judging.isFinalized_iff.mp (hdone j hj hid)) now operator
    exact happ.of_eq rfl rfl rfl rfl rfl happ.runs
  | cancel hq hopen operator => exact h.cancel hq hopen now operator
  | count id _ =>
    exact ((advances_countJudging id).sound h h.runs).of_eq rfl rfl rfl rfl rfl h.runs
  | rebuild contestId => exact (advances_rebuild contestId).sound h h.runs

/-! ## Enrolment -/

theorem Sound.enrolled_rejudged {ds : List StatisticsDelta} (h : s.Sound) (he : s.Enrolled)
    (hr : Rejudged s ds s') : s'.Enrolled := by
  induction hr with
  | none => exact he
  | next hr _ _ _ _ ih =>
    refine ih (h.rejudge hr _) ((queues_rejudge h.numbered hr _).enrolled he rfl fun a => ?_)
    split <;> rfl

/-- **Submissions that know their rejudging** do so after every change. -/
theorem Sound.enrolled (h : s.Sound) (he : s.Enrolled) (hc : Change now s es s') : s'.Enrolled := by
  cases hc with
  | addJudgehost | touchJudgehost | switchJudgehost | switchProblem | switchLanguage | raise
  | close | removeTestcase => exact he
  | enqueue hr hidle =>
    exact (queues_queue h.numbered ⟨_, hr, rfl⟩).enrolled he rfl fun _ => rfl
  | claim hhost hj => exact (advances_handOut hj _ now).enrolled he
  | putBack hj => exact (advances_putBack (mem_of_nextDispatchable hj).1).enrolled he
  | compile hj hheld success output =>
    have hl := Judging.lifecycle_of_isClaimedBy hheld
    exact (advances_compile hj hl success output now).enrolled he
  | grade hj hheld hr hsub hverdict _ _ _ =>
    have hl := Judging.lifecycle_of_isClaimedBy hheld
    exact (advances_grade hverdict h.runs hj hl _ now).enrolled he
  | requeue hj hheld _ => exact h.enrolled_replace hj he now
  | rejudge hr _ => exact fun r hmem => h.enrolled_rejudged he hr r hmem
  | openRejudging new => exact h.numbered.enrolled_openRejudging he new now
  | propose hq hopen hr hfree hcontest hj hsub _ fullTest =>
    exact h.enrolled_propose hq hopen hr hcontest hsub fullTest he
  | apply hq hopen hdone operator _ => exact enrolled_apply he _ now operator
  | cancel hq hopen operator => exact enrolled_cancel he _ now operator
  | count id _ => exact (advances_countJudging id).enrolled he
  | rebuild contestId => exact (advances_rebuild contestId).enrolled he

/-! ## Owners -/

theorem KeepsOwners.trans {s₂ : Store} (h : s.KeepsOwners s₁) (h' : s₁.KeepsOwners s₂) :
    s.KeepsOwners s₂ := by
  intro j hj
  obtain ⟨j₁, hj₁, hsub⟩ := h j hj
  obtain ⟨j₂, hj₂, hsub'⟩ := h' j₁ hj₁
  exact ⟨j₂, hj₂, hsub'.trans hsub⟩

theorem Advances.keepsOwners (h : s.Advances s') : s.KeepsOwners s' := by
  intro j hj
  obtain ⟨j', hj', hadv⟩ := h.forward j hj
  exact ⟨j', hj', hadv.submissionId⟩

theorem Queues.keepsOwners {new : Judging} {f : Judging → Judging} (h : s.Queues s' new f) :
    s.KeepsOwners s' :=
  fun j hj => ⟨f j, h.mem_old hj, h.submissionId_eq j⟩

theorem Sound.keepsOwners_rejudged {ds : List StatisticsDelta} (h : s.Sound)
    (hr : Rejudged s ds s') : s.KeepsOwners s' := by
  induction hr with
  | none => exact fun j hj => ⟨j, hj, rfl⟩
  | next hr _ _ _ _ ih =>
    exact (queues_rejudge h.numbered hr _).keepsOwners.trans (ih (h.rejudge hr _))

/-- A cancelled rejudging takes candidates away, but the active judging of
their submission stays. -/
theorem Sound.keepsOwners_cancel {q : Rejudging} (h : s.Sound) (hq : q ∈ s.rejudgings)
    (hopen : q.applied = none) (now : Instant) (operator : Option Int) :
    s.KeepsOwners (s.cancelRejudging q.id now operator) := by
  intro j hj
  obtain ⟨a, ha, hsub, hact⟩ := h.authority.exists_active j hj
  exact ⟨a, h.mem_cancel_of_active hq hopen ha hact, hsub⟩

/-- **A submission that has judgings keeps some through every change.** -/
theorem Sound.keepsOwners (h : s.Sound) (hc : Change now s es s') : s.KeepsOwners s' := by
  have hsame : ∀ {t : Store}, t.judgings = s.judgings → s.KeepsOwners t :=
    fun hjud j hj => ⟨j, hjud ▸ hj, rfl⟩
  cases hc with
  | addJudgehost | touchJudgehost | switchJudgehost | switchProblem | switchLanguage | raise
  | close | removeTestcase | openRejudging => exact hsame rfl
  | enqueue hr hidle => exact (queues_queue h.numbered ⟨_, hr, rfl⟩).keepsOwners
  | claim hhost hj => exact (advances_handOut hj _ now).keepsOwners
  | putBack hj => exact (advances_putBack (mem_of_nextDispatchable hj).1).keepsOwners
  | compile hj hheld success output =>
    have hl := Judging.lifecycle_of_isClaimedBy hheld
    exact (advances_compile hj hl success output now).keepsOwners
  | grade hj hheld hr hsub hverdict _ _ _ =>
    have hl := Judging.lifecycle_of_isClaimedBy hheld
    exact (advances_grade hverdict h.runs hj hl _ now).keepsOwners
  | requeue hj hheld _ => exact (queues_replace h.numbered hj now).keepsOwners
  | rejudge hr _ => exact fun j hj => h.keepsOwners_rejudged hr j hj
  | propose hq hopen hr hfree hcontest hj hsub _ fullTest =>
    exact (h.queues_propose hr hsub fullTest).keepsOwners
  | apply hq hopen hdone operator _ =>
    intro j hj
    obtain ⟨b, hb, -, -, hsub, -⟩ := exists_mem_apply hj _ now operator
    exact ⟨b, hb, hsub⟩
  | cancel hq hopen operator => exact h.keepsOwners_cancel hq hopen now operator
  | count id _ => exact (advances_countJudging id).keepsOwners
  | rebuild contestId => exact (advances_rebuild contestId).keepsOwners

/-! ## Ends that are told of -/

theorem Announces.trans {s₂ : Store} (h : s.Announces es s₁) (h' : s₁.Announces fs s₂) :
    s.Announces (es ++ fs) s₂ := by
  intro j₂ hj₂ hawaits
  rcases h' j₂ hj₂ hawaits with ⟨j₁, hj₁, hawaits₁, hfin⟩ | hmem
  · rw [← hfin]
    exact (h j₁ hj₁ hawaits₁).imp_right fun hmem => List.mem_append_left fs hmem
  · exact .inr (List.mem_append_right es hmem)

/-- Where the judgings are the same, none has ended. -/
theorem announces_of_eq (h : s'.judgings = s.judgings) : s.Announces es s' :=
  fun j hj hawaits => .inl ⟨j, h ▸ hj, hawaits, rfl⟩

/-- A change row by row announces what it makes wait. -/
theorem announces_of_update {p : Judging → Bool} {f : Judging → Judging}
    (hf : ∀ j, key (f j) = key j) (hjud : s'.judgings = s.judgings.update p f hf)
    (h : ∀ j ∈ s.judgings, p j = true → (f j).AwaitsCount →
      j.AwaitsCount ∧ j.finished = (f j).finished ∨ (f j).finished ∈ es) : s.Announces es s' := by
  intro j' hj' hawaits
  rw [hjud, Table.mem_update] at hj'
  obtain ⟨j, hj, rfl⟩ := hj'
  by_cases hp : p j = true
  · rw [if_pos hp] at hawaits ⊢
    exact (h j hj hp hawaits).imp_left fun hw => ⟨j, hj, hw⟩
  · rw [if_neg hp] at hawaits ⊢
    exact .inl ⟨j, hj, hawaits, rfl⟩

theorem announces_of_modify {j : Judging} {f : Judging → Judging}
    (hf : ∀ j, key (f j) = key j) (hjud : s'.judgings = s.judgings.modify j.id f hf)
    (hj : j ∈ s.judgings) (h : (f j).AwaitsCount →
      j.AwaitsCount ∧ j.finished = (f j).finished ∨ (f j).finished ∈ es) : s.Announces es s' := by
  refine announces_of_update hf hjud fun i hi hid => ?_
  rw [judging_eq hi hj (of_decide_eq_true hid)]
  exact h

/-- A judging that is queued does not wait to be counted. -/
theorem Queues.announces {new : Judging} {f : Judging → Judging} (h : s.Queues s' new f)
    (hf : ∀ a ∈ s.judgings, (f a).AwaitsCount → a.AwaitsCount) : s.Announces es s' := by
  intro b hb hawaits
  rcases (h.mem_iff b).mp hb with rfl | ⟨a, ha, rfl⟩
  · have hended := hawaits.ended
    rw [h.lifecycle_new] at hended
    cases hended
  · refine .inl ⟨a, ha, hf a ha hawaits, ?_⟩
    rw [Judging.finished, Judging.finished, h.id_eq, h.submissionId_eq]

theorem Sound.announces_rejudged {ds : List StatisticsDelta} (h : s.Sound)
    (hr : Rejudged s ds s') : s.Announces [] s' := by
  induction hr with
  | none => exact announces_of_eq rfl
  | @next s _ r _ _ fullTest hr _ _ _ _ ih =>
    have hstep : s.Announces [] (s.rejudge r.id fullTest) := by
      refine (queues_rejudge h.numbered hr fullTest).announces fun a _ hawaits => ?_
      split at hawaits
      · cases hawaits.active
      · exact hawaits
    exact hstep.trans (ih (h.rejudge hr fullTest))

/-- **A judging that waits to be counted** did so before a change, or the
change tells of its end. -/
theorem Sound.announces (h : s.Sound) (hc : Change now s es s') : s.Announces es s' := by
  cases hc with
  | addJudgehost | touchJudgehost | switchJudgehost | switchProblem | switchLanguage | raise
  | close | removeTestcase | openRejudging => exact announces_of_eq rfl
  | enqueue hr hidle =>
    exact (queues_queue h.numbered ⟨_, hr, rfl⟩).announces fun _ _ => id
  | claim hhost hj =>
    refine announces_of_modify (Judging.key_claimedBy · _ now) rfl (mem_of_nextDispatchable hj).1
      fun hawaits => ?_
    cases hawaits.ended
  | putBack hj =>
    exact announces_of_modify Judging.key_unclaimed rfl (mem_of_nextDispatchable hj).1
      fun hawaits => .inl ⟨⟨hawaits.active, hawaits.ended, hawaits.uncounted⟩, rfl⟩
  | compile hj hheld success output =>
    refine announces_of_modify (Dispatch.key_compiled · success output now) rfl hj fun hawaits => ?_
    cases success with
    | true => exact .inl ⟨⟨hawaits.active, hawaits.ended, hawaits.uncounted⟩, rfl⟩
    | false => exact .inr List.mem_cons_self
  | @grade j r _ reports hj hheld hr hsub hverdict _ _ _ =>
    refine announces_of_modify (Grading.key_graded · _ _ _ now) rfl hj fun hawaits => ?_
    unfold Grading.graded at hawaits ⊢
    simp only at hawaits ⊢
    split
    · exact .inr List.mem_cons_self
    · next hincomplete =>
      rw [if_neg hincomplete] at hawaits
      exact .inl ⟨⟨hawaits.active, hawaits.ended, hawaits.uncounted⟩, rfl⟩
  | requeue hj hheld _ =>
    refine (queues_replace h.numbered hj now).announces fun a _ hawaits => ?_
    split at hawaits
    · cases hawaits.active
    · exact hawaits
  | rejudge hr _ => exact fun j hj => h.announces_rejudged hr j hj
  | propose hq hopen hr hfree hcontest hj hsub _ fullTest =>
    exact (h.queues_propose hr hsub fullTest).announces fun _ _ => id
  | apply hq hopen hdone operator _ =>
    refine announces_of_update (Judging.key_settled _) rfl fun j _ _ hawaits => ?_
    -- whatever applying makes active it also counts
    have hcounted : (j.settled _).counted = true := hawaits.active
    rw [hawaits.uncounted] at hcounted
    cases hcounted
  | cancel hq hopen operator =>
    intro b hb hawaits
    rcases mem_judgings_cancelRejudging.mp hb with ⟨a, -, -, -, rfl⟩ | ⟨hb, -⟩
    · cases hawaits.active
    · exact .inl ⟨b, hb, hawaits, rfl⟩
  | count id _ =>
    exact announces_of_update Judging.key_flagged rfl fun j _ _ hawaits =>
      absurd hawaits j.not_awaitsCount_flagged
  | rebuild contestId =>
    refine announces_of_update Judging.key_reflagged rfl fun j _ _ hawaits => ?_
    have hcounted : j.reflagged.counted = true := by
      rw [Judging.reflagged, Bool.and_eq_true, Bool.or_eq_true, Judging.isFinalized_iff]
      exact ⟨hawaits.active, .inl hawaits.ended⟩
    rw [hawaits.uncounted] at hcounted
    cases hcounted

end Store

end JudgeQueue
