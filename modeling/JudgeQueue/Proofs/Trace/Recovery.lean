import JudgeQueue.Proofs.Trace.Basic
/-!
# Traces of requests — recovery and incidents

Requeueing is one change, and requeueing several judgings is one change
each: the others are still held after the first. So what is requeued for a
judgehost, for all stale judgehosts or with an internal error is a trace
with one event for each attempt that is abandoned.
-/

namespace JudgeQueue

open Transaction

variable {now : Instant} {s t : Store}

/-! ## Requeueing -/

/-- **Requeueing** replaces the judging, and answers it as it was abandoned. -/
theorem ensures_requeue (hs : s.Sound) {j : Judging} (hj : j ∈ s.judgings) (now : Instant) :
    (requeue j now).Ensures s fun r s' =>
      s' = s.replace j now ∧ r.event = .judgingFinished j.id j.submissionId := by
  simp only [requeue, ensures_bind, ensures_ask, Query.run, Store.insertJudging_eq]
  split
  · next hinsert =>
    split at hinsert
    · cases hinsert
      rw [Store.updateJudgings_ofId]
      rw [ensures_loadJudging]
      intro a ha
      refine ⟨rfl, ?_⟩
      obtain ⟨hmem, hid⟩ := Store.mem_of_find?_judging ha
      -- the replacement has the next id, so what is read back is the abandoned one
      rcases (Store.mem_judgings_replace hs.numbered hj).mp hmem with rfl | rfl | ⟨-, hne⟩
      · exact absurd hid.symm (hs.numbered.ne_next hj)
      · rfl
      · exact absurd hid hne
    · cases hinsert
  · trivial

/-- The change that requeues a judging. -/
theorem change_requeue (hs : s.Sound) {j : Judging} (hj : j ∈ s.judgings)
    (hheld : j.isClaimed = true) (now : Instant) :
    Change now s [.judgingFinished j.id j.submissionId] (s.replace j now) :=
  .requeue hj hheld (hs.numbered.owned j hj)

/-- **Requeueing several judgings** that are held is a trace with an event
for each. -/
theorem ensures_requeueAll (now : Instant) {js : List Judging} (hs : s.Sound)
    (hmem : ∀ j ∈ js, j ∈ s.judgings ∧ j.isClaimed = true) (hnodup : (js.map Judging.id).Nodup) :
    (requeueAll now js).Ensures s fun rs s' => Trace now s (rs.map Requeued.event) s' := by
  induction js generalizing s with
  | nil => exact .refl
  | cons j rest ih =>
    obtain ⟨hj, hheld⟩ := hmem j List.mem_cons_self
    obtain ⟨hne, hrest⟩ := List.nodup_cons.mp hnodup
    simp only [requeueAll, ensures_bind, ensures_pure]
    refine (ensures_requeue hs hj now).mono ?_
    rintro r _ ⟨rfl, hevent⟩
    have hc := change_requeue hs hj hheld now
    refine (ih (hs.change hc) (fun i hi => ?_) hrest).mono fun rs s' ht => ?_
    · -- the other judgings are still there
      obtain ⟨hmem', hheld'⟩ := hmem i (List.mem_cons_of_mem j hi)
      have hid : i.id ≠ j.id := fun heq => hne (heq ▸ List.mem_map_of_mem hi)
      exact ⟨(Store.mem_judgings_replace hs.numbered hj).mpr (.inr (.inr ⟨hmem', hid⟩)), hheld'⟩
    · rw [List.map_cons, hevent]
      exact .step hc ht

/-- **What a judgehost holds** is requeued. -/
theorem ensures_requeueHeldBy (hs : s.Sound) (hostname : String) (now : Instant) :
    (requeueHeldBy hostname now).Ensures s fun rs s' => Trace now s (rs.map Requeued.event) s' := by
  simp only [requeueHeldBy, ensures_bind, ensures_ask, Query.run]
  refine ensures_requeueAll now hs (fun j hj => ?_) (s.nodup_ids_filter _)
  obtain ⟨hj, hadmits⟩ := Table.mem_filter.mp hj
  refine ⟨hj, ?_⟩
  simp only [JudgingFilter.admits, Option.all_none, Option.all_some, Bool.true_and, Bool.and_true,
    Bool.and_eq_true] at hadmits
  exact hadmits.1

/-- And what any of some judgehosts hold. -/
theorem ensures_requeueHeldByAny (now : Instant) {hostnames : List String} (hs : s.Sound) :
    (requeueHeldByAny now hostnames).Ensures s fun rs s' =>
      Trace now s (rs.map Requeued.event) s' := by
  induction hostnames generalizing s with
  | nil => exact .refl
  | cons hostname rest ih =>
    simp only [requeueHeldByAny, ensures_bind, ensures_pure]
    refine (ensures_requeueHeldBy hs hostname now).mono fun rs s₁ ht => ?_
    refine (ih (hs.trace ht)).mono fun others s₂ ht' => ?_
    rw [List.map_append]
    exact ht.trans ht'

/-! ## Recovery -/

theorem traces_returnToQueue (hs : s.Sound) (judgingId : Int) (now : Instant) :
    (Recovery.returnToQueue judgingId now).Traces now s := by
  simp only [Traces, Recovery.returnToQueue, commits_bind, ensures_loadJudging]
  intro j hj
  obtain ⟨hmem, -⟩ := Store.mem_of_find?_judging hj
  split
  · next hheld =>
    rw [commits_bind]
    refine (ensures_requeue hs hmem now).mono ?_
    rintro r _ ⟨rfl, hevent⟩
    rw [commits_commit, hevent]
    exact .of_change (change_requeue hs hmem hheld now)
  · exact traces_rollback none

theorem traces_sweepStale (hs : s.Sound) (timeout : Span) (now : Instant) :
    (Recovery.sweepStale timeout now).Traces now s := by
  simp only [Traces, Recovery.sweepStale, commits_bind, ensures_ask, Query.run]
  refine (ensures_requeueHeldByAny now hs).mono fun rs s' ht => ?_
  split
  · exact commits_rollback
  · exact commits_commit.mpr ht

/-! ## Incidents -/

/-- Switching a target on or off is a silent trace. -/
theorem ensures_setTargetEnabled (target : DisableTarget) (enabled : Bool) (now : Instant) :
    (setTargetEnabled target enabled).Ensures s fun _ s' => Trace now s [] s' := by
  cases target with
  | language id => exact ensures_ask.mpr (.of_change (.switchLanguage id enabled))
  | judgehost hostname => exact ensures_ask.mpr (.of_change (.switchJudgehost hostname enabled))
  | problem id => exact ensures_ask.mpr (.of_change (.switchProblem id enabled))
  | unknown => exact Trace.refl

theorem ensures_requeueIfClaimed (hs : s.Sound) (judgingId : Int) (now : Instant) :
    (requeueIfClaimed judgingId now).Ensures s fun o s' =>
      Trace now s (o.map Requeued.event).toList s' := by
  simp only [requeueIfClaimed, ensures_bind, ensures_ask, Query.run]
  split
  · next j hj =>
    obtain ⟨hmem, -⟩ := Store.mem_of_find?_judging hj
    split
    · next hheld =>
      rw [ensures_map]
      refine (ensures_requeue hs hmem now).mono ?_
      rintro r _ ⟨rfl, hevent⟩
      rw [Option.map_some, Option.toList_some, hevent]
      exact .of_change (change_requeue hs hmem hheld now)
    · exact Trace.refl
  · exact Trace.refl

/-- **A report** records an internal error, switches off its target and
requeues its judging. -/
theorem traces_report (hs : s.Sound) (r : IncidentReport) (now : Instant) :
    (Incident.report r now).Traces now s := by
  simp only [Traces, Incident.report, commits_bind, ensures_ask, Query.run]
  have hraise : Change now s _ _ := .raise
    ⟨r.contestId, r.judgingId, r.description, r.judgehostLog, now, r.disabled⟩
    (DisableTarget.ofValue r.disabled) (.inl rfl)
  refine (ensures_setTargetEnabled _ false now).mono fun _ s₁ hswitch => ?_
  have hs₁ := (hs.change hraise).trace hswitch
  split
  · next id _ =>
    rw [commits_bind]
    refine (ensures_requeueIfClaimed hs₁ id now).mono fun o s₂ ht => ?_
    exact commits_commit.mpr (.step hraise (hswitch.trans ht))
  · rw [commits_bind, ensures_pure]
    exact commits_commit.mpr (.step hraise hswitch)

theorem traces_resolve (id : Int) (status : ErrorStatus) :
    (Incident.resolve id status).Traces now s := by
  simp only [Traces, Incident.resolve, commits_bind, ensures_unlessError, ensures_ask, Query.run,
    ensures_need]
  intro hclosing e he hopen
  split
  · next hupdate =>
    rw [Store.updateInternalErrorStatus, he] at hupdate
    simp only at hupdate
    have hopen := of_decide_eq_true hopen
    rw [if_pos hopen] at hupdate
    cases hupdate
    have hid : e.id = id := Table.key_of_find? he
    have hc : Change now s _ _ := .close (Table.mem_of_find? he) hopen (of_decide_eq_true hclosing)
    rw [hid] at hc
    split
    · rw [commits_bind]
      refine (ensures_setTargetEnabled _ true now).mono fun _ s' ht => ?_
      exact commits_commit.mpr (.silent hc ht)
    · exact commits_commit.mpr (.of_change hc)
  · trivial

end JudgeQueue
