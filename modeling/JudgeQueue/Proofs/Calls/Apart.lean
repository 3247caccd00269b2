import JudgeQueue.Proofs.Calls.Desk
import JudgeQueue.Proofs.Trace.Dispatch
import JudgeQueue.Proofs.Trace.Grading
/-!
# Calls of judgehosts — what they leave alone

Every call begins with the heartbeat, and what it does after that it does to
judgings that wait in the queue or that the caller holds. So it leaves the desks
of all other judgehosts as they are.
-/

namespace JudgeQueue

open Transaction

variable {α : Type} {s : Store} {hostname other : String} {now : Instant}

/-- A call is followed from its heartbeat on. -/
theorem commits_heartbeat {f : Bool → Transaction (Ending α)} {P : α → List Event → Store → Prop}
    (h : ∀ mayWork, (f mayWork).Commits (s.touchJudgehost hostname now) P) :
    (heartbeat hostname now >>= f).Commits s P := by
  rw [commits_bind, ensures_heartbeat]
  exact h _

/-! ## Registration -/

/-- Requeueing what one judgehost holds leaves the desks of others as they
are. -/
theorem ensures_requeueAll_desk (hne : hostname ≠ other) (now : Instant) {js : List Judging}
    (hs : s.Sound) (hjs : ∀ j ∈ js, j ∈ s.judgings ∧ j.isClaimedBy hostname = true)
    (hnodup : (js.map Judging.id).Nodup) :
    (requeueAll now js).Ensures s fun _ s' => s'.desk other = s.desk other := by
  induction js generalizing s with
  | nil => exact rfl
  | cons j rest ih =>
    obtain ⟨⟨hj, hheld⟩, hothers⟩ := List.forall_mem_cons.mp hjs
    obtain ⟨hfresh, hrest⟩ := List.nodup_cons.mp hnodup
    simp only [requeueAll, ensures_bind, ensures_pure]
    refine (ensures_requeue hs hj now).mono ?_
    rintro r _ ⟨rfl, -⟩
    have hclaimed : j.isClaimed = true := by
      rw [Judging.isClaimedBy, Bool.and_eq_true] at hheld
      exact hheld.1
    have hstill : ∀ i ∈ rest,
        i ∈ (s.replace j now).judgings ∧ i.isClaimedBy hostname = true := by
      intro i hi
      obtain ⟨hmem, hiheld⟩ := hothers i hi
      have hid : i.id ≠ j.id := fun heq => hfresh (heq ▸ List.mem_map_of_mem hi)
      exact ⟨(Store.mem_judgings_replace hs.numbered hj).mpr (.inr (.inr ⟨hmem, hid⟩)), hiheld⟩
    refine (ih (hs.change (change_requeue hs hj hclaimed now)) hstill hrest).mono ?_
    exact fun _ _ hdesk => hdesk.trans (Store.desk_replace hj hheld hne hs.numbered now)

namespace Dispatch

/-- **Registering** leaves the desks of other judgehosts as they are. -/
theorem commits_register_desk (hs : s.Sound) (hne : hostname ≠ other) (now : Instant) :
    (register hostname now).Commits s fun _ _ s' => s'.desk other = s.desk other := by
  simp only [register, commits_bind, ensures_ask, Query.run]
  split
  · simp only [commits_bind, ensures_ask, Query.run, Store.insertJudgehost]
    split
    · next hinsert =>
      split at hinsert
      · cases hinsert
      · cases hinsert
        exact commits_commit.mpr (Store.desk_insertJudgehost hne)
    · trivial
  · have hc : Change now s [] (s.touchJudgehost hostname now) := .touchJudgehost hostname
    simp only [commits_bind, ensures_ask, Query.run, requeueHeldBy, ensures_bind]
    refine (ensures_requeueAll_desk hne now (hs.change hc) (fun j hj => ?_)
      (Store.nodup_ids_filter _)).mono fun rs s₁ hdesk => ?_
    · obtain ⟨hmem, hadmits⟩ := Table.mem_filter.mp hj
      refine ⟨hmem, ?_⟩
      simpa [JudgingFilter.admits, Judging.isClaimedBy, Judging.isClaimed] using hadmits
    · refine (ensures_unfinished rs).mono ?_
      rintro us _ rfl
      exact commits_commit.mpr (hdesk.trans (Store.desk_touchJudgehost hne now))

end Dispatch

/-! ## Claims -/

namespace Store

/-- A change that is about the work of one judgehost leaves all judgehosts and
all runs as they are, and what the reports of the others go by. -/
structure Spares (s : Store) (hostname : String) (s' : Store) : Prop where
  judgehosts : s'.judgehosts = s.judgehosts
  runs : s'.runs = s.runs
  lastRun : s'.lastRun = s.lastRun
  brief : ∀ other, hostname ≠ other → s'.brief other = s.brief other

variable {s₁ s' : Store}

theorem Spares.refl (s : Store) (hostname : String) : s.Spares hostname s :=
  ⟨rfl, rfl, rfl, fun _ _ => rfl⟩

theorem Spares.trans (h : s.Spares hostname s₁) (h' : s₁.Spares hostname s') :
    s.Spares hostname s' :=
  ⟨h'.judgehosts.trans h.judgehosts, h'.runs.trans h.runs, h'.lastRun.trans h.lastRun,
    fun other hne => (h'.brief other hne).trans (h.brief other hne)⟩

theorem spares_handOut {j : Judging} (hj : s.nextDispatchable = some j) (hostname : String)
    (now : Instant) : s.Spares hostname (s.handOut j.id hostname now) := by
  obtain ⟨hmem, hl⟩ := mem_of_nextDispatchable hj
  exact ⟨rfl, rfl, rfl, fun _ hne => brief_handOut hmem hl hne now⟩

end Store

namespace Dispatch

/-- A judging that is put back was on no desk, and neither languages and
problems nor internal errors are. -/
theorem ensures_putBack_spares {j : Judging} (hj : s.nextDispatchable = some j) (contestId : Int)
    {missing : MissingScript} (howner : (∃ id, missing.owner = .language id) ∨
      ∃ id, missing.owner = .problem id) :
    (putBack (j.claimedBy hostname now) contestId missing now).Ensures
      (s.handOut j.id hostname now) fun _ s' => s.Spares hostname s' := by
  obtain ⟨hmem, hl⟩ := Store.mem_of_nextDispatchable hj
  have hwrite : (s.handOut j.id hostname now).updateJudging
      { j.claimedBy hostname now with lifecycle := .queued, server := none, startTime := none } =
      .ok (s.putBack j.id) :=
    updateJudging_handOut hmem hl hostname now
  have hspares : s.Spares hostname (s.putBack j.id) :=
    ⟨rfl, rfl, rfl, fun _ _ => Store.brief_putBack hmem hl⟩
  simp only [putBack, ensures_bind, ensures_ask, Query.run, ensures_pure]
  rw [hwrite]
  rcases howner with ⟨id, howner⟩ | ⟨id, howner⟩
  · rw [howner]
    exact ensures_ask.mpr ⟨rfl, rfl, rfl, hspares.brief⟩
  · rw [howner]
    exact ensures_ask.mpr ⟨rfl, rfl, rfl, hspares.brief⟩

/-- **Claiming in rounds** is about the judgehost that claims. -/
theorem commits_claimRounds_spares (defaults : DefaultScripts) (rounds : Nat)
    (raised : List Event) :
    (claimRounds defaults hostname now rounds raised).Commits s fun _ _ s' =>
      s.Spares hostname s' := by
  induction rounds generalizing s raised with
  | zero => exact commits_fail
  | succ rounds ih =>
    simp only [claimRounds, commits_bind, ensures_ask, Query.run, Store.claimNextJudging]
    cases hj : s.nextDispatchable with
    | none => exact commits_commit.mpr (.refl s hostname)
    | some j =>
      simp only [commits_bind, ensures_loadSubmission, ensures_ask, Query.run, ensures_need]
      intro submission _ problem _ language _
      refine (ensures_resolveScripts defaults problem language).mono ?_
      rintro found _ ⟨rfl, hmissing⟩
      split
      · simp only [commits_bind, ensures_ask, Query.run]
        exact commits_commit.mpr (Store.spares_handOut hj hostname now)
      · next missing =>
        rw [commits_bind]
        have howner : (∃ id, missing.owner = .language id) ∨ ∃ id, missing.owner = .problem id :=
          (hmissing missing rfl).imp (fun h => ⟨_, h⟩) fun h => ⟨_, h⟩
        have hput : (putBack (j.claimedBy hostname now) submission.contestId missing now).Ensures
            (s.handOut j.id hostname now) fun _ s' => s.Spares hostname s' :=
          ensures_putBack_spares hj _ howner
        refine hput.mono fun event s₁ hspares => ?_
        exact (ih (raised ++ [event])).mono fun _ _ _ hrest => hspares.trans hrest

/-- **A claim** records the call, and the rest is about the judgehost that
claims. -/
theorem commits_claimJudging (hostname : String) (defaults : DefaultScripts) (rounds : Nat)
    (now : Instant) :
    (claimJudging defaults rounds hostname now).Commits s fun _ _ s' =>
      (s.touchJudgehost hostname now).Spares hostname s' := by
  refine commits_heartbeat fun mayWork => ?_
  cases mayWork with
  | false => exact commits_commit.mpr (.refl _ hostname)
  | true => exact commits_claimRounds_spares defaults rounds []

/-! ## Testcases and compilation -/

/-- Asking for a testcase of a judging records the call. -/
theorem commits_claimTestcase (hostname : String) (judgingId : Int) (now : Instant) :
    (claimTestcase hostname judgingId now).Commits s fun _ _ s' =>
      s' = s.touchJudgehost hostname now := by
  refine commits_heartbeat fun mayWork => ?_
  cases mayWork with
  | false => exact commits_commit.mpr rfl
  | true =>
    simp only [Bool.not_true, Bool.false_eq_true, if_false, commits_bind, ensures_loadJudging]
    intro j _
    split
    · exact commits_commit.mpr rfl
    · simp only [commits_bind, ensures_loadSubmission, ensures_ask, Query.run]
      intro submission _
      split
      · exact commits_commit.mpr rfl
      · simp only [commits_bind, ensures_ask, Query.run]
        exact commits_commit.mpr rfl

/-- **A report on compiling** records the call, and compiles the judging if the
caller holds it. -/
theorem commits_reportCompilation (hostname : String) (judgingId : Int) (success : Bool)
    (output : String) (now : Instant) :
    (reportCompilation hostname judgingId success output now).Commits s fun _ _ s' =>
      s' = s.touchJudgehost hostname now ∨
        ∃ j ∈ (s.touchJudgehost hostname now).judgings, j.isClaimedBy hostname = true ∧
          s' = (s.touchJudgehost hostname now).compile j.id success output now := by
  refine commits_heartbeat fun mayWork => ?_
  cases mayWork with
  | false => exact commits_commit.mpr (.inl rfl)
  | true =>
    simp only [Bool.not_true, Bool.false_eq_true, if_false, commits_bind, ensures_loadJudging]
    intro j hj
    obtain ⟨hmem, -⟩ := Store.mem_of_find?_judging hj
    split
    · exact commits_commit.mpr (.inl rfl)
    · next hheld =>
      simp only [commits_bind, ensures_ask, Query.run]
      rw [updateJudging_compiled hmem]
      exact commits_commit.mpr (.inr ⟨j, hmem, by simpa using hheld, rfl⟩)

end Dispatch

/-! ## Runs -/

namespace Grading

/-- **A report of runs** records the call, and grades the judging if the caller
holds it. -/
theorem commits_reportRuns (hostname : String) (judgingId : Int) (reports : List RunReport)
    (now : Instant) :
    (reportRuns hostname judgingId reports now).Commits s fun _ _ s' =>
      s' = s.touchJudgehost hostname now ∨
        ∃ j ∈ (s.touchJudgehost hostname now).judgings, j.isClaimedBy hostname = true ∧
          ∃ problemId recorded,
            s' = (s.touchJudgehost hostname now).grade j.id problemId recorded now := by
  unfold reportRuns
  split
  · exact commits_fail
  · refine commits_heartbeat fun mayWork => ?_
    cases mayWork with
    | false => exact commits_commit.mpr (.inl rfl)
    | true =>
      simp only [Bool.not_true, Bool.false_eq_true, if_false, commits_bind, ensures_loadJudging]
      intro j hj
      obtain ⟨hmem, -⟩ := Store.mem_of_find?_judging hj
      split
      · next hheld =>
        refine (commits_recordBatch hmem reports now).mono ?_
        rintro _ _ _ ⟨r, -, -, -, -, -, rfl⟩
        exact .inr ⟨j, hmem, hheld, r.problemId, _, rfl⟩
      · exact commits_commit.mpr (.inl rfl)

end Grading

end JudgeQueue
