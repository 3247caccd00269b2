import JudgeQueue.Proofs.Calls.Refusal
import JudgeQueue.Proofs.Trace.Effects
/-!
# Calls of judgehosts — what is heard of a judgehost

A call and its heartbeat are kept or dropped together. So a judgehost is heard
of by every call that is answered, and by none that fails before it is; and
nobody is heard of by the report of an internal error.
-/

namespace JudgeQueue

open Transaction

variable {α β : Type} {w : World} {s : Store} {ctx : Context} {hostname : String} {now : Instant}

/-! ## Programs that are kept if they succeed -/

/-- The changes are kept. -/
def Transaction.Ending.IsCommit : Ending α → Prop
  | .commit _ _ => True
  | .rollback _ => False

/-- **What a body commits has been done** if its request is answered, and the
body does not drop its changes of its own accord. -/
theorem transact_of_ok {E : List Effect} {body : Transaction (Ending α)}
    {P : α → List Event → Store → Prop} (h : body.Commits w.store P)
    (hkept : body.Within E Ending.IsCommit) {a : α} (ha : (transact ctx w body).answer = .ok a) :
    P a (transact ctx w body).events (transact ctx w body).world.store := by
  rcases transact_within hkept ctx w with ⟨b, hanswer, -⟩ | ⟨-, -, hnone⟩
  · unfold transact at ha ⊢
    split at ha
    · next b es n w' hx =>
      split at ha
      · cases ha
        exact h.exec hx a es rfl
      · cases ha
    · next hx =>
      exact (hkept.exec (R := fun _ _ => True) (fun _ => trivial) (fun _ _ => trivial)
        (fun _ _ => trivial) hx).1.elim
    · cases ha
  · exact (hnone a ha).elim

namespace Dispatch

variable {E : List Effect}

theorem kept_claimJudging (defaults : DefaultScripts) (rounds : Nat) (hostname : String)
    (now : Instant) :
    (claimJudging defaults rounds hostname now).Within [.handsOut] Ending.IsCommit :=
  (within_claimJudging List.mem_cons_self defaults rounds hostname now).mono fun ending h => by
    cases ending with
    | commit => trivial
    | rollback => exact h

theorem kept_claimTestcase (hostname : String) (judgingId : Int) (now : Instant) :
    (claimTestcase hostname judgingId now).Within [] Ending.IsCommit := by
  refine (asks_heartbeat hostname now).bind fun mayWork => ?_
  split
  · trivial
  · refine (asks_loadJudging judgingId).bind fun j => ?_
    split
    · trivial
    · refine (asks_loadSubmission _).bind fun submission => (asks_ask rfl).bind fun problem => ?_
      split
      · trivial
      · exact (asks_ask rfl).bind fun _ => (asks_ask rfl).bind fun _ => trivial

theorem kept_findContent (hostname : String) (testcaseId : Int) (now : Instant) :
    (findContent hostname testcaseId now).Within [] Ending.IsCommit := by
  refine (asks_heartbeat hostname now).bind fun mayWork => ?_
  split
  · exact (asks_ask rfl).bind fun found => (asks_need _ found).bind fun _ => trivial
  · trivial

theorem kept_reportCompilation (hostname : String) (judgingId : Int) (success : Bool)
    (output : String) (now : Instant) :
    (reportCompilation hostname judgingId success output now).Within [] Ending.IsCommit := by
  refine (asks_heartbeat hostname now).bind fun mayWork => ?_
  split
  · trivial
  · refine (asks_loadJudging judgingId).bind fun j => ?_
    split
    · trivial
    · exact (asks_ask rfl).bind fun _ => trivial

end Dispatch

namespace Grading

theorem kept_recordBatch (j : Judging) (reports : List RunReport) (now : Instant) :
    (recordBatch j reports now).Within [.records, .puts] Ending.IsCommit := by
  refine (asks_loadSubmission _).bind fun _ => (asks_ask rfl).bind fun testcases => ?_
  refine (asks_ask rfl).bind fun earlier => ?_
  refine (asks_recordRuns (by decide) (by decide) _ _ testcases now _ reports).bind fun _ => ?_
  refine (asks_ask rfl).bind fun runs => ?_
  simp only
  split
  · exact (asks_ask rfl).bind fun _ => trivial
  · split
    · trivial
    · exact (asks_ask rfl).bind fun _ => trivial

theorem kept_reportRuns (hostname : String) (judgingId : Int) (reports : List RunReport)
    (now : Instant) :
    (reportRuns hostname judgingId reports now).Within [.records, .puts] Ending.IsCommit := by
  unfold reportRuns
  split
  · trivial
  · refine (asks_heartbeat hostname now).bind fun mayWork => ?_
    split
    · trivial
    · refine (asks_loadJudging judgingId).bind fun j => ?_
      split
      · exact kept_recordBatch j reports now
      · trivial

end Grading

/-! ## What is heard of a judgehost that calls -/

/-- **A call that is answered has been recorded**, and nothing else has become
of the judgehosts. -/
theorem Call.judgehosts_perform (c : Call β) {answer : Option β}
    (ha : ((c.operation hostname).perform ctx w).answer = .ok answer) :
    ((c.operation hostname).perform ctx w).world.store.judgehosts =
      (w.store.touchJudgehost hostname ctx.now).judgehosts := by
  cases c with
  | claimJudging =>
    have hspares := transact_of_ok
      (Dispatch.commits_claimJudging hostname ctx.scripts (w.store.enabledTargets + 1) ctx.now)
      (Dispatch.kept_claimJudging ctx.scripts _ hostname ctx.now) ha
    exact hspares.judgehosts
  | claimTestcase judgingId =>
    have hstore := transact_of_ok (Dispatch.commits_claimTestcase hostname judgingId ctx.now)
      (Dispatch.kept_claimTestcase hostname judgingId ctx.now) ha
    exact congrArg Store.judgehosts hstore
  | fetchTestcase testcaseId kind =>
    change (Dispatch.fetchTestcase ctx w hostname testcaseId kind).answer = _ at ha
    change (Dispatch.fetchTestcase ctx w hostname testcaseId kind).world.store.judgehosts = _
    rw [Dispatch.world_fetchTestcase]
    cases hfound : (transact ctx w (Dispatch.findContent hostname testcaseId ctx.now)).answer with
    | error e =>
      simp only [Dispatch.fetchTestcase, hfound] at ha
      cases ha
    | ok found =>
      have hstore := transact_of_ok (Dispatch.commits_findContent hostname testcaseId ctx.now)
        (Dispatch.kept_findContent hostname testcaseId ctx.now) hfound
      exact congrArg Store.judgehosts hstore
  | reportCompilation judgingId success output =>
    have hstore := transact_of_ok
      (Dispatch.commits_reportCompilation hostname judgingId success output ctx.now)
      (Dispatch.kept_reportCompilation hostname judgingId success output ctx.now) ha
    rcases hstore with hstore | ⟨j, -, -, hstore⟩
    · exact congrArg Store.judgehosts hstore
    · -- compiling a judging leaves the judgehosts alone
      have hhosts := congrArg Store.judgehosts hstore
      exact hhosts
  | reportRuns judgingId reports =>
    have hstore := transact_of_ok (Grading.commits_reportRuns hostname judgingId reports ctx.now)
      (Grading.kept_reportRuns hostname judgingId reports ctx.now) ha
    rcases hstore with hstore | ⟨j, -, -, problemId, recorded, hstore⟩
    · exact congrArg Store.judgehosts hstore
    · exact (congrArg Store.judgehosts hstore).trans (Store.judgehosts_grade ..)

/-! ## What is heard of judgehosts from a report of an internal error -/

/-- When a judgehost has called last, if it is known. -/
def Store.pollTime (s : Store) (hostname : String) : Option (Option Instant) :=
  (s.judgehosts.find? hostname).map Judgehost.pollTime

theorem ensures_requeue_judgehosts (j : Judging) (now : Instant) :
    (requeue j now).Ensures s fun _ s' => s'.judgehosts = s.judgehosts := by
  simp only [requeue, ensures_bind, ensures_ask, Query.run, Store.insertJudging]
  split
  · next hinsert =>
    split at hinsert
    · cases hinsert
      rw [ensures_loadJudging]
      exact fun _ _ => rfl
    · cases hinsert
  · trivial

/-- Switching a target on or off tells of no judgehost that it has called. -/
theorem ensures_setTargetEnabled_pollTime (target : DisableTarget) (enabled : Bool) :
    (setTargetEnabled target enabled).Ensures s fun _ s' =>
      ∀ hostname, s'.pollTime hostname = s.pollTime hostname := by
  cases target with
  | judgehost name =>
    refine ensures_ask.mpr fun hostname => ?_
    rw [Store.pollTime, Store.pollTime, Store.setJudgehostActive, Table.find?_modify,
      Option.map_map]
    congr 1
    funext h
    rw [Function.comp_apply]
    split <;> rfl
  | language id => exact ensures_ask.mpr fun _ => rfl
  | problem id => exact ensures_ask.mpr fun _ => rfl
  | unknown => exact fun _ => rfl

theorem ensures_requeueIfClaimed_judgehosts (judgingId : Int) (now : Instant) :
    (requeueIfClaimed judgingId now).Ensures s fun _ s' => s'.judgehosts = s.judgehosts := by
  simp only [requeueIfClaimed, ensures_bind, ensures_ask, Query.run]
  split
  · split
    · exact ensures_map.mpr (ensures_requeue_judgehosts _ now)
    · exact ensures_pure.mpr rfl
  · exact ensures_pure.mpr rfl

/-- **A report of an internal error** tells of no judgehost that it has
called. -/
theorem Incident.commits_report_pollTime (r : IncidentReport) (now : Instant) :
    (report r now).Commits s fun _ _ s' =>
      ∀ hostname, s'.pollTime hostname = s.pollTime hostname := by
  simp only [report, commits_bind, ensures_ask, Query.run]
  refine (ensures_setTargetEnabled_pollTime _ false).mono fun _ s₁ hswitch => ?_
  split
  · next id _ =>
    rw [commits_bind]
    refine (ensures_requeueIfClaimed_judgehosts id now).mono fun _ s' hsame => ?_
    rw [commits_commit]
    intro hostname
    rw [Store.pollTime, hsame]
    exact hswitch hostname
  · exact commits_commit.mpr hswitch

end JudgeQueue
