import JudgeQueue.Proofs.Trace.Dispatch
import JudgeQueue.Proofs.Transaction.Leaves
/-!
# Traces of requests — effects

Most programs only read rows, queue judgings and change rows where they stand.
A claim hands a judging out, a report of runs records them and puts their
output, and only cancelling a rejudging and removing a testcase remove rows.
-/

namespace JudgeQueue

open Transaction

variable {E : List Effect}

/-! ## What requests begin with -/

theorem asks_loadSubmission (id : Int) : (loadSubmission id).Asks E :=
  (asks_ask rfl).bind fun _ => asks_need _ _

theorem asks_loadJudging (id : Int) : (loadJudging id).Asks E :=
  (asks_ask rfl).bind fun _ => asks_need _ _

theorem asks_heartbeat (hostname : String) (now : Instant) : (heartbeat hostname now).Asks E := by
  refine (asks_ask rfl).bind fun host => ?_
  cases host with
  | none => exact asks_pure _
  | some host => exact (asks_ask rfl).bind fun _ => asks_pure _

/-! ## Recovery and incidents -/

theorem asks_requeue (j : Judging) (now : Instant) : (requeue j now).Asks E :=
  (asks_ask rfl).bind fun _ => (asks_ask rfl).bind fun _ =>
    (asks_loadJudging j.id).bind fun _ => asks_pure _

theorem asks_requeueAll (now : Instant) (js : List Judging) : (requeueAll now js).Asks E := by
  induction js with
  | nil => exact asks_pure _
  | cons j rest ih => exact (asks_requeue j now).bind fun _ => ih.bind fun _ => asks_pure _

theorem asks_requeueHeldBy (hostname : String) (now : Instant) :
    (requeueHeldBy hostname now).Asks E :=
  (asks_ask rfl).bind fun held => asks_requeueAll now held

theorem asks_requeueHeldByAny (now : Instant) (hostnames : List String) :
    (requeueHeldByAny now hostnames).Asks E := by
  induction hostnames with
  | nil => exact asks_pure _
  | cons hostname rest ih =>
    exact (asks_requeueHeldBy hostname now).bind fun _ => ih.bind fun _ => asks_pure _

theorem asks_requeueIfClaimed (judgingId : Int) (now : Instant) :
    (requeueIfClaimed judgingId now).Asks E := by
  refine (asks_ask rfl).bind fun found => ?_
  cases found with
  | none => exact asks_pure _
  | some j =>
    simp only
    split
    · exact (asks_requeue j now).map some
    · exact asks_pure _

theorem asks_setTargetEnabled (target : DisableTarget) (enabled : Bool) :
    (setTargetEnabled target enabled).Asks E := by
  cases target with
  | unknown => exact asks_pure _
  | _ => exact asks_ask rfl

/-- What is requeued has no effect of its own. -/
theorem minds_requeued {α : Type} (a : α) (rs : List Requeued) :
    (commit a (rs.map Requeued.event)).Minds E := by
  refine minds_commit fun event hevent => ?_
  obtain ⟨r, -, rfl⟩ := List.mem_map.mp hevent
  rfl

namespace Recovery

theorem minds_returnToQueue (judgingId : Int) (now : Instant) :
    (returnToQueue judgingId now).Minds E := by
  refine (asks_loadJudging judgingId).bind fun j => ?_
  split
  · exact (asks_requeue j now).bind fun r => minds_requeued _ [r]
  · exact minds_rollback _

theorem minds_sweepStale (timeout : Span) (now : Instant) : (sweepStale timeout now).Minds E := by
  refine (asks_ask rfl).bind fun _ => (asks_requeueHeldByAny now _).bind fun rs => ?_
  split
  · exact minds_rollback _
  · exact minds_requeued _ _

end Recovery

namespace Incident

theorem minds_report (r : IncidentReport) (now : Instant) : (report r now).Minds E := by
  refine (asks_ask rfl).bind fun error => (asks_setTargetEnabled _ _).bind fun _ => ?_
  have hcommit : ∀ requeued : Option Requeued,
      (commit (⟨error, .ofValue r.disabled, requeued⟩ : RaisedError)
        (.internalErrorRaised error.id error.judgingId (DisableTarget.ofValue r.disabled).kind ::
          (requeued.map Requeued.event).toList)).Minds E := by
    refine fun requeued => minds_commit fun event hevent => ?_
    rcases List.mem_cons.mp hevent with rfl | hevent
    · rfl
    · obtain ⟨_, -, rfl⟩ := Option.map_eq_some_iff.mp (Option.mem_toList.mp hevent)
      rfl
  simp only
  split
  · exact (asks_requeueIfClaimed _ now).bind hcommit
  · exact (asks_pure _).bind hcommit

theorem minds_resolve (id : Int) (status : ErrorStatus) : (resolve id status).Minds E := by
  refine (asks_unlessError _ _).bind fun _ => (asks_ask rfl).bind fun found => ?_
  refine (asks_need _ found).bind fun error => (asks_unlessError _ _).bind fun _ => ?_
  refine (asks_ask rfl).bind fun _ => ?_
  split
  · exact (asks_setTargetEnabled _ _).bind fun _ => minds_silent _
  · exact minds_silent _

end Incident

/-! ## Dispatch -/

namespace Dispatch

theorem asks_unfinished (rs : List Requeued) : (unfinished rs).Asks E := by
  induction rs with
  | nil => exact asks_pure _
  | cons r rest ih => exact (asks_loadSubmission _).bind fun _ => ih.bind fun _ => asks_pure _

theorem minds_register (hostname : String) (now : Instant) : (register hostname now).Minds E := by
  refine (asks_ask rfl).bind fun host => ?_
  cases host with
  | none => exact (asks_ask rfl).bind fun _ => minds_silent _
  | some host =>
    exact (asks_ask rfl).bind fun _ => (asks_requeueHeldBy hostname now).bind fun rs =>
      (asks_unfinished rs).bind fun _ => minds_requeued _ rs

theorem asks_findScript (id : String) (owner : DisableTarget) : (findScript id owner).Asks E := by
  refine (asks_ask rfl).bind fun found => ?_
  cases found <;> exact asks_pure _

theorem asks_resolveScripts (defaults : DefaultScripts) (problem : Problem)
    (language : Language) : (resolveScripts defaults problem language).Asks E := by
  refine (asks_findScript _ _).bind fun compile => ?_
  cases compile with
  | error missing => exact asks_pure _
  | ok compile =>
    refine (asks_findScript _ _).bind fun run => ?_
    cases run with
    | error missing => exact asks_pure _
    | ok run =>
      refine (asks_findScript _ _).bind fun compare => ?_
      cases compare <;> exact asks_pure _

/-- The event tells of an internal error. -/
def TellsOfError (event : Event) : Prop :=
  ∃ id judgingId disabled, event = .internalErrorRaised id judgingId disabled

/-- A claim publishes the internal errors that it raised, and after them that
the judging has begun that it answers with, if it does. -/
def Claims (hostname : String) : Ending (Option Payload) → Prop
  | .commit payload es => ∃ raised : List Event, (∀ event ∈ raised, TellsOfError event) ∧
      es = raised ++ (payload.map fun p =>
        .judgingBegun p.judging.id p.judging.submissionId hostname).toList
  | .rollback _ => False

/-- What a claim publishes tells of no other effect. -/
theorem Claims.minds {hostname : String} {ending : Ending (Option Payload)}
    (h : Claims hostname ending) (hout : .handsOut ∈ E) : ending.Minds E := by
  cases ending with
  | rollback => exact h.elim
  | commit payload es =>
    obtain ⟨raised, hraised, rfl⟩ := h
    intro event hevent e he
    rcases List.mem_append.mp hevent with hmem | hmem
    · obtain ⟨id, judgingId, disabled, rfl⟩ := hraised event hmem
      cases he
    · obtain ⟨p, -, rfl⟩ := Option.map_eq_some_iff.mp (Option.mem_toList.mp hmem)
      cases he
      exact hout

/-- What is put back is told of as an internal error. -/
theorem within_putBack (j : Judging) (contestId : Int) (missing : MissingScript)
    (now : Instant) : (putBack j contestId missing now).Within E TellsOfError :=
  (asks_ask rfl).bind fun _ => (asks_setTargetEnabled _ _).bind fun _ =>
    (asks_ask rfl).bind fun error => ⟨error.id, none, missing.owner.kind, rfl⟩

/-- **The rounds of a claim** raise errors until one of them hands a judging
out. -/
theorem within_claimRounds (hout : .handsOut ∈ E) (defaults : DefaultScripts)
    (hostname : String) (now : Instant) (rounds : Nat) {raised : List Event}
    (hraised : ∀ event ∈ raised, TellsOfError event) :
    (claimRounds defaults hostname now rounds raised).Within E (Claims hostname) := by
  induction rounds generalizing raised with
  | zero => trivial
  | succ rounds ih =>
    refine (asks_ask_effect rfl hout).bind fun claimed => ?_
    cases claimed with
    | none => exact ⟨raised, hraised, (List.append_nil raised).symm⟩
    | some j =>
      refine (asks_loadSubmission _).bind fun submission => ?_
      refine (asks_ask rfl).bind fun found => (asks_need _ found).bind fun problem => ?_
      refine (asks_ask rfl).bind fun found => (asks_need _ found).bind fun language => ?_
      refine (asks_resolveScripts defaults problem language).bind fun scripts => ?_
      cases scripts with
      | ok scripts => exact (asks_ask rfl).bind fun _ => ⟨raised, hraised, rfl⟩
      | error missing =>
        refine (within_putBack j _ missing now).bind fun event hevent => ih ?_
        intro event' hevent'
        rcases List.mem_append.mp hevent' with hmem | hmem
        · exact hraised event' hmem
        · rwa [List.mem_singleton.mp hmem]

theorem within_claimJudging (hout : .handsOut ∈ E) (defaults : DefaultScripts) (rounds : Nat)
    (hostname : String) (now : Instant) :
    (claimJudging defaults rounds hostname now).Within E (Claims hostname) := by
  refine (asks_heartbeat hostname now).bind fun active => ?_
  split
  · exact within_claimRounds hout defaults hostname now rounds fun _ hevent => by cases hevent
  · exact ⟨[], fun _ hevent => (by cases hevent), rfl⟩

theorem minds_claimJudging (hout : .handsOut ∈ E) (defaults : DefaultScripts) (rounds : Nat)
    (hostname : String) (now : Instant) :
    (claimJudging defaults rounds hostname now).Minds E :=
  (within_claimJudging hout defaults rounds hostname now).mono fun _ h => h.minds hout

theorem minds_claimTestcase (hostname : String) (judgingId : Int) (now : Instant) :
    (claimTestcase hostname judgingId now).Minds E := by
  refine (asks_heartbeat hostname now).bind fun active => ?_
  split
  · exact minds_silent _
  · refine (asks_loadJudging judgingId).bind fun j => ?_
    split
    · exact minds_silent _
    · refine (asks_loadSubmission _).bind fun submission => (asks_ask rfl).bind fun problem => ?_
      split
      · exact minds_silent _
      · exact (asks_ask rfl).bind fun _ => (asks_ask rfl).bind fun _ => minds_silent _

theorem minds_findContent (hostname : String) (testcaseId : Int) (now : Instant) :
    (findContent hostname testcaseId now).Minds E := by
  refine (asks_heartbeat hostname now).bind fun active => ?_
  split
  · exact (asks_ask rfl).bind fun found => (asks_need _ found).bind fun _ => minds_silent _
  · exact minds_silent _

theorem minds_reportCompilation (hostname : String) (judgingId : Int) (success : Bool)
    (output : String) (now : Instant) :
    (reportCompilation hostname judgingId success output now).Minds E := by
  refine (asks_heartbeat hostname now).bind fun active => ?_
  split
  · exact minds_silent _
  · refine (asks_loadJudging judgingId).bind fun j => ?_
    split
    · exact minds_silent _
    · refine (asks_ask rfl).bind fun _ => minds_commit fun event hevent => ?_
      split at hevent
      · rw [List.mem_singleton.mp hevent]
        rfl
      · cases hevent

theorem minds_enqueue (submissionId : Int) : (enqueue submissionId).Minds E :=
  (asks_loadSubmission submissionId).bind fun _ => (asks_ask rfl).bind fun _ =>
    (asks_unlessError _ _).bind fun _ => (asks_ask rfl).bind fun _ => minds_silent _

end Dispatch

/-! ## Grading -/

namespace Grading

theorem asks_putOutputs (hputs : .puts ∈ E) (judgingId runId : Int)
    (outputs : List (RunOutputKind × Bytes)) : (putOutputs judgingId runId outputs).Asks E := by
  induction outputs with
  | nil => exact asks_pure _
  | cons output rest ih => exact (asks_putBlob hputs _ _).bind fun _ => ih

theorem asks_recordRuns (hrecords : .records ∈ E) (hputs : .puts ∈ E) (judgingId problemId : Int)
    (testcases : List Testcase) (now : Instant) (seen : List Int) (reports : List RunReport) :
    (recordRuns judgingId problemId testcases now seen reports).Asks E := by
  induction reports generalizing seen with
  | nil => exact asks_pure _
  | cons r rest ih =>
    refine (asks_unlessError _ _).bind fun _ => ?_
    split
    · exact ih seen
    · exact (asks_ask_effect rfl hrecords).bind fun run =>
        (asks_putOutputs hputs _ _ _).bind fun _ => (ih _).bind fun _ => asks_pure _

theorem minds_recordBatch (hrecords : .records ∈ E) (hputs : .puts ∈ E) (j : Judging)
    (reports : List RunReport) (now : Instant) : (recordBatch j reports now).Minds E := by
  refine (asks_loadSubmission _).bind fun _ => (asks_ask rfl).bind fun testcases => ?_
  refine (asks_ask rfl).bind fun earlier => ?_
  refine (asks_recordRuns hrecords hputs _ _ testcases now _ reports).bind fun _ => ?_
  refine (asks_ask rfl).bind fun runs => ?_
  simp only
  split
  · refine (asks_ask rfl).bind fun _ => minds_commit fun event hevent => ?_
    rw [List.mem_singleton.mp hevent]
    rfl
  · split
    · exact minds_silent _
    · exact (asks_ask rfl).bind fun _ => minds_silent _

theorem minds_reportRuns (hrecords : .records ∈ E) (hputs : .puts ∈ E) (hostname : String)
    (judgingId : Int) (reports : List RunReport) (now : Instant) :
    (reportRuns hostname judgingId reports now).Minds E := by
  unfold reportRuns
  split
  · exact minds_fail _
  · refine (asks_heartbeat hostname now).bind fun active => ?_
    split
    · exact minds_silent _
    · refine (asks_loadJudging judgingId).bind fun j => ?_
      split
      · exact minds_recordBatch hrecords hputs j reports now
      · exact minds_silent _

end Grading

/-! ## Rejudging -/

namespace Standings

theorem asks_contributions (judgings : List Judging) : (contributions judgings).Asks E := by
  unfold contributions
  split
  · exact asks_pure _
  · exact (asks_ask rfl).bind fun _ => asks_pure _

theorem asks_count (f : JudgingFilter) : (count f).Asks E :=
  (asks_ask rfl).bind fun flagged => asks_contributions flagged

theorem asks_uncount (f : JudgingFilter) : (uncount f).Asks E :=
  (asks_ask rfl).bind fun cleared => (asks_contributions cleared).bind fun _ => asks_pure _

theorem minds_judgingFinished (judgingId : Int) : (judgingFinished judgingId).Minds E :=
  (asks_count _).bind fun _ => (asks_ask rfl).bind fun _ => minds_silent _

theorem minds_rebuild (contestId : Int) : (rebuild contestId).Minds E :=
  (asks_ask rfl).bind fun _ => (asks_ask rfl).bind fun _ => (asks_ask rfl).bind fun _ =>
    (asks_ask rfl).bind fun _ => (asks_ask rfl).bind fun _ => minds_silent _

end Standings

namespace Rejudge

theorem asks_loadOpen (id : Int) : (loadOpen id).Asks E :=
  (asks_ask rfl).bind fun found => (asks_need _ found).bind fun _ =>
    (asks_unlessError _ _).bind fun _ => asks_pure _

theorem asks_replaceActive (submission : Submission) (current : List Judging) (fullTest : Bool) :
    (replaceActive submission current fullTest).Asks E :=
  (asks_ask rfl).bind fun _ => (Standings.asks_uncount _).bind fun _ =>
    (asks_ask rfl).bind fun _ => asks_pure _

theorem asks_replaceAll (fullTest : Bool) (ms : List (Submission × Judging)) :
    (replaceAll fullTest ms).Asks E := by
  induction ms with
  | nil => exact asks_pure _
  | cons m rest ih => exact (asks_replaceActive _ _ _).bind fun _ => ih.bind fun _ => asks_pure _

theorem asks_insertAll (news : List NewJudging) : (insertAll news).Asks E := by
  induction news with
  | nil => exact asks_pure _
  | cons new rest ih => exact (asks_ask rfl).bind fun _ => ih.bind fun _ => asks_pure _

theorem asks_checkRejudging (contestId : Int) (rejudgingId : Option Int) :
    (checkRejudging contestId rejudgingId).Asks E := by
  cases rejudgingId with
  | none => exact asks_pure _
  | some id => exact (asks_loadOpen id).bind fun _ => asks_unlessError _ _

theorem minds_get (id : Int) : (get id).Minds E :=
  (asks_ask rfl).bind fun found => (asks_need _ found).bind fun _ =>
    (asks_ask rfl).bind fun _ => minds_silent _

theorem minds_batch (selection : Selection) (rejudgingId : Option Int) (fullTest : Bool) :
    (batch selection rejudgingId fullTest).Minds E := by
  refine (asks_checkRejudging _ _).bind fun _ => (asks_ask rfl).bind fun _ => ?_
  refine (asks_ask rfl).bind fun _ => ?_
  cases rejudgingId with
  | none =>
    exact (asks_replaceAll fullTest _).bind fun _ => (asks_ask rfl).bind fun _ => minds_silent _
  | some id =>
    exact (asks_ask rfl).bind fun _ => (asks_insertAll _).bind fun _ => minds_silent _

theorem minds_apply (id : Int) (operator : Option Int) (now : Instant) :
    (apply id operator now).Minds E := by
  refine (asks_loadOpen id).bind fun _ => (asks_ask rfl).bind fun _ => ?_
  refine (asks_unlessError _ _).bind fun _ => (asks_ask rfl).bind fun _ => ?_
  refine (Standings.asks_uncount _).bind fun _ => (asks_ask rfl).bind fun _ => ?_
  exact (Standings.asks_count _).bind fun _ => (asks_ask rfl).bind fun _ =>
    (asks_ask rfl).bind fun _ => (asks_ask rfl).bind fun _ => minds_silent _

theorem minds_cancel (hremoves : .removes ∈ E) (id : Int) (operator : Option Int)
    (now : Instant) : (cancel id operator now).Minds E := by
  refine (asks_loadOpen id).bind fun r => (asks_ask_effect rfl hremoves).bind fun deleted => ?_
  refine (asks_ask rfl).bind fun claimed => ?_
  have hcommit : (commit (⟨r.decide false now operator, deleted, claimed.map Judging.id⟩ :
      Cancellation) (claimed.map fun j => .judgingFinished j.id j.submissionId)).Minds E := by
    refine minds_commit fun event hevent => ?_
    obtain ⟨j, -, rfl⟩ := List.mem_map.mp hevent
    rfl
  simp only
  split
  · exact (asks_ask rfl).bind fun _ => (asks_ask rfl).bind fun _ => (asks_ask rfl).bind fun _ =>
      hcommit
  · exact (asks_ask rfl).bind fun _ => (asks_ask rfl).bind fun _ => hcommit

theorem minds_submission (submissionId : Int) : (submission submissionId).Minds E := by
  refine (asks_loadSubmission submissionId).bind fun s => ?_
  split
  · exact minds_fail _
  · exact (asks_ask rfl).bind fun _ => (asks_replaceActive _ _ _).bind fun _ =>
      (asks_ask rfl).bind fun _ => minds_silent _

end Rejudge

theorem minds_deleteTestcase (hremoves : .removes ∈ E) (id : Int) :
    (deleteTestcase id).Minds E := by
  refine (asks_ask rfl).bind fun found => ?_
  cases found with
  | none => exact minds_rollback _
  | some testcase =>
    refine (asks_ask rfl).bind fun _ => (asks_ask rfl).bind fun claimed => ?_
    split
    · exact (asks_ask_effect rfl hremoves).bind fun _ => minds_silent _
    · exact minds_rollback _

/-! ## All requests -/

/-- What a request reports to have been run, of which judging. -/
def Operation.reports? {α : Type} : Operation α → Option (Int × List RunReport)
  | reportRuns _ judgingId reports => some (judgingId, reports)
  | _ => none

/-- What a request may do. -/
def Operation.effects {α : Type} : Operation α → List Effect
  | claimJudging _ => [.handsOut]
  | reportRuns .. => [.records, .puts]
  | cancelRejudging .. | deleteTestcase _ => [.removes]
  | _ => []

/-- **Every request** leaves the world of a program within its effects, and
publishes no other events. -/
theorem Operation.exists_body {α : Type} (op : Operation α) (ctx : Context) (w : World) :
    ∃ (β : Type) (body : Transaction (Ending β)), body.Minds op.effects ∧
      (op.perform ctx w).world = (transact ctx w body).world ∧
      (op.perform ctx w).events ⊆ (transact ctx w body).events := by
  cases op with
  | register hostname => exact ⟨_, _, Dispatch.minds_register hostname ctx.now, rfl, fun _ h => h⟩
  | claimJudging hostname =>
    exact ⟨_, _, Dispatch.minds_claimJudging List.mem_cons_self ctx.scripts _ hostname ctx.now,
      rfl, fun _ h => h⟩
  | claimTestcase hostname judgingId =>
    exact ⟨_, _, Dispatch.minds_claimTestcase hostname judgingId ctx.now, rfl, fun _ h => h⟩
  | fetchTestcase hostname testcaseId kind =>
    refine ⟨_, _, Dispatch.minds_findContent hostname testcaseId ctx.now,
      Dispatch.world_fetchTestcase .., ?_⟩
    rw [perform, Dispatch.events_fetchTestcase]
    exact List.nil_subset _
  | reportCompilation hostname judgingId success output =>
    exact ⟨_, _, Dispatch.minds_reportCompilation hostname judgingId success output ctx.now,
      rfl, fun _ h => h⟩
  | reportRuns hostname judgingId reports =>
    exact ⟨_, _, Grading.minds_reportRuns List.mem_cons_self (List.mem_cons_of_mem _
      List.mem_cons_self) hostname judgingId reports ctx.now, rfl, fun _ h => h⟩
  | runOutput => exact ⟨_, rollback (), minds_rollback _, rfl, fun _ h => h⟩
  | enqueue submissionId => exact ⟨_, _, Dispatch.minds_enqueue submissionId, rfl, fun _ h => h⟩
  | listJudgehosts => exact ⟨_, _, (asks_ask rfl).bind fun _ => minds_silent _, rfl, fun _ h => h⟩
  | setJudgehostActive | setProblemJudging | setLanguageJudging =>
    exact ⟨_, _, (asks_ask rfl).bind fun _ => (asks_unlessError _ _).bind fun _ =>
      minds_silent _, rfl, fun _ h => h⟩
  | returnToQueue judgingId =>
    exact ⟨_, _, Recovery.minds_returnToQueue judgingId ctx.now, rfl, fun _ h => h⟩
  | sweepStale timeout => exact ⟨_, _, Recovery.minds_sweepStale timeout ctx.now, rfl, fun _ h => h⟩
  | reportError report => exact ⟨_, _, Incident.minds_report report ctx.now, rfl, fun _ h => h⟩
  | resolveError id status => exact ⟨_, _, Incident.minds_resolve id status, rfl, fun _ h => h⟩
  | listErrors | createRejudging | getStatistics =>
    exact ⟨_, _, (asks_ask rfl).bind fun _ => minds_silent _, rfl, fun _ h => h⟩
  | getRejudging id => exact ⟨_, _, Rejudge.minds_get id, rfl, fun _ h => h⟩
  | batchRejudge selection rejudgingId fullTest =>
    exact ⟨_, _, Rejudge.minds_batch selection rejudgingId fullTest, rfl, fun _ h => h⟩
  | applyRejudging id operator =>
    exact ⟨_, _, Rejudge.minds_apply id operator ctx.now, rfl, fun _ h => h⟩
  | cancelRejudging id operator =>
    exact ⟨_, _, Rejudge.minds_cancel List.mem_cons_self id operator ctx.now, rfl, fun _ h => h⟩
  | rejudgeSubmission submissionId =>
    exact ⟨_, _, Rejudge.minds_submission submissionId, rfl, fun _ h => h⟩
  | judgingFinished judgingId =>
    exact ⟨_, _, Standings.minds_judgingFinished judgingId, rfl, fun _ h => h⟩
  | rebuildStatistics contestId =>
    exact ⟨_, _, Standings.minds_rebuild contestId, rfl, fun _ h => h⟩
  | deleteTestcase testcaseId =>
    exact ⟨_, _, minds_deleteTestcase List.mem_cons_self testcaseId, rfl, fun _ h => h⟩

/-- A request that reports nothing neither records runs nor puts blobs. -/
theorem Operation.not_mem_effects {α : Type} {op : Operation α} (h : op.reports? = none) :
    .records ∉ op.effects ∧ .puts ∉ op.effects := by
  cases op with
  | reportRuns => cases h
  | _ => simp [effects]

/-- **A request that reports nothing** leaves the blobs alone and keeps the
runs. -/
theorem perform_quiet {α : Type} {op : Operation α} (h : op.reports? = none) (ctx : Context)
    (w : World) : (op.perform ctx w).world.blobs = w.blobs ∧
      w.store.KeepsRuns (op.perform ctx w).world.store := by
  obtain ⟨β, body, hbody, hworld, -⟩ := op.exists_body ctx w
  rw [hworld]
  exact transact_quiet hbody (op.not_mem_effects h).1 (op.not_mem_effects h).2 ctx w

end JudgeQueue
