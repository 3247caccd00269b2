import JudgeQueue.Proofs.Reachable.Course
import JudgeQueue.Proofs.Recovery.Requeue
import JudgeQueue.Proofs.Recovery.Switch
/-!
# Reachable worlds — recovery

Work that a judgehost will not finish is taken back in four ways: when the
judgehost registers again, when somebody asks for it, when the judgehost has
not polled for too long, and with an internal error. All of them abandon just
the judgings that they are to abandon and queue one fresh attempt for each, so
no work is lost and none is done twice; nothing else changes, and at once
afterwards there is nothing left to take back.
-/

namespace JudgeQueue

open Transaction

variable {α : Type}

namespace Operation

/-- The judgings that a request is to take back at a time: those that a
judgehost holds which registers, the one that is named, those that stale
judgehosts hold, and the one that an internal error names, each only while it
is held. -/
def TakesBack (s : Store) (now : Instant) : Operation α → Judging → Prop
  | register hostname, j => j.lifecycle = .claimed ∧ j.server = some hostname
  | returnToQueue id, j => j.lifecycle = .claimed ∧ j.id = id
  | sweepStale timeout, j => j.lifecycle = .claimed ∧ ∃ host ∈ s.judgehosts,
      j.server = some host.hostname ∧
        (host.pollTime = none ∨ ∃ seen, host.pollTime = some seen ∧ timeout < now.since seen)
  | reportError report, j => j.lifecycle = .claimed ∧ report.judgingId = some j.id
  | _, _ => False

/-- The requests that take work back. Of registrations these are the ones of
judgehosts that are known. -/
def IsRecovery (s : Store) : Operation α → Prop
  | register hostname => ∃ host ∈ s.judgehosts, host.hostname = hostname
  | returnToQueue _ | sweepStale _ | reportError _ => True
  | _ => False

/-- The answer names what was taken back. Asking for a judging that does not
exist is an error. -/
def Returns (s : Store) : Operation α → Except Error α → List Requeued → Prop
  | register _, .ok registration, rs =>
    registration.unfinished.map (fun u => (u.submissionId, u.judgingId)) =
      rs.map fun r => (r.abandoned.submissionId, r.abandoned.id)
  | returnToQueue _, .ok requeued, rs => requeued.toList = rs
  | returnToQueue id, .error e, rs =>
    e = .notFound (.judging id) ∧ (∀ j ∈ s.judgings, j.id ≠ id) ∧ rs = []
  | sweepStale _, .ok requeued, rs => requeued = rs
  | reportError _, .ok raised, rs => raised.requeued.toList = rs
  | _, _, _ => False

end Operation

namespace Store

/-- Judgings have been requeued, and the work of a store is otherwise what it
was: its other judgings, its runs, its submissions and its statistics. -/
structure Recovers (s : Store) (A : Judging → Prop) (now : Instant) (rs : List Requeued)
    (s' : Store) : Prop where
  judgings : s.judgings.Recovers A now rs s'.judgings
  runs : s'.runs = s.runs
  submissions : s'.submissions = s.submissions
  statistics : s'.statistics = s.statistics

variable {s s₁ s' : Store} {A B : Judging → Prop} {now : Instant} {rs : List Requeued}

/-- What is requeued after some bookkeeping. -/
theorem Requeues.recovers (h : s₁.Requeues A now rs s')
    (hsame : s₁ = { s₁ with
      judgings := s.judgings
      runs := s.runs
      submissions := s.submissions
      statistics := s.statistics }) : s.Recovers A now rs s' := by
  rw [hsame] at h
  have hruns := congrArg Store.runs h.frame
  have hsubmissions := congrArg Store.submissions h.frame
  have hstatistics := congrArg Store.statistics h.frame
  exact ⟨h.judgings, hruns, hsubmissions, hstatistics⟩

/-- Bookkeeping alone takes nothing back. -/
theorem recovers_nil (hnone : ∀ j ∈ s.judgings, ¬ A j)
    (hsame : s' = { s' with
      judgings := s.judgings
      runs := s.runs
      submissions := s.submissions
      statistics := s.statistics }) : s.Recovers A now [] s' := by
  rw [hsame]
  exact ⟨.nil hnone, rfl, rfl, rfl⟩

end Store

/-- What a recovery comes to: the request answers what it has taken back, and
repeated at once it takes back no more. -/
structure Outcome.Recovers (out : Outcome α) (op : Operation α) (s : Store) (now : Instant)
    (rs : List Requeued) : Prop where
  returns : op.Returns s out.answer rs
  store : s.Recovers (op.TakesBack s now) now rs out.world.store
  later : ∀ j, op.TakesBack out.world.store now j → op.TakesBack s now j
  again : op.IsRecovery out.world.store

variable {w : World} {ctx : Context}

/-! ## Registering -/

namespace Dispatch

/-- **What a judgehost left behind** is told of judging by judging. -/
theorem run_unfinished (hs : w.store.Sound) {rs : List Requeued}
    (hrs : ∀ r ∈ rs, r.abandoned ∈ w.store.judgings) :
    ∃ us, (unfinished rs).run w = (.ok us, w) ∧
      us.map (fun u => (u.submissionId, u.judgingId)) =
        rs.map fun r => (r.abandoned.submissionId, r.abandoned.id) := by
  induction rs with
  | nil => exact ⟨[], rfl, rfl⟩
  | cons r rest ih =>
    obtain ⟨us, hrun, hus⟩ := ih fun q hq => hrs q (List.mem_cons_of_mem r hq)
    obtain ⟨p, hp, hid⟩ := hs.numbered.owned r.abandoned (hrs r List.mem_cons_self)
    have hload := run_loadSubmission (w := w) hp
    rw [hid] at hload
    refine ⟨⟨p.contestId, p.id, r.abandoned.id⟩ :: us, ?_, ?_⟩
    · rw [unfinished, run_bind hload, run_bind hrun]
      rfl
    · rw [List.map_cons, List.map_cons, hus, hid]

/-- **A known judgehost that registers** has lost what it held. -/
theorem recovers_register (h : w.store.OnCourse) (hfaults : ctx.faults = .none)
    {host : Judgehost} (hhost : host ∈ w.store.judgehosts) :
    ∃ rs, ((Operation.register host.hostname).perform ctx w).Recovers
      (.register host.hostname) w.store ctx.now rs := by
  have hfind : w.store.judgehosts.find? host.hostname = some host := Table.find?_key hhost
  have htouched : (w.store.touchJudgehost host.hostname ctx.now).OnCourse :=
    h.change (.touchJudgehost host.hostname)
  obtain ⟨rs, s', hrun, hrequeues⟩ := run_requeueHeldBy
    (w := { w with store := w.store.touchJudgehost host.hostname ctx.now }) htouched
    host.hostname ctx.now
  obtain ⟨us, hrun', hus⟩ := run_unfinished (w := { w with store := s' }) hrequeues.course.sound
    fun r hr => (hrequeues.judgings.mem_abandoned hr).1
  have hbody : (register host.hostname ctx.now).run w =
      (.ok (.commit ⟨{ host with pollTime := some ctx.now }, us⟩ (rs.map Requeued.event)),
        { w with store := s' }) := by
    rw [register, run_bind (run_ask rfl), hfind]
    simp only
    rw [run_bind (run_ask rfl), run_bind hrun, run_bind hrun']
    rfl
  refine ⟨rs, ?_⟩
  rw [Operation.perform, transact_run hfaults hbody]
  refine ⟨hus, hrequeues.recovers rfl, fun _ hA => hA, ?_⟩
  -- the judgehost has only been touched
  have hhosts : s'.judgehosts = (w.store.touchJudgehost host.hostname ctx.now).judgehosts := by
    rw [hrequeues.frame]
  refine ⟨{ host with pollTime := some ctx.now }, ?_, rfl⟩
  change { host with pollTime := some ctx.now } ∈ s'.judgehosts
  rw [hhosts, Store.touchJudgehost, Table.mem_modify]
  exact .inl ⟨host, hhost, rfl, rfl⟩

end Dispatch

/-! ## Returning a judging -/

namespace Recovery

/-- **A judging that is returned** is taken back if a judgehost holds it. -/
theorem recovers_returnToQueue (h : w.store.OnCourse) (hfaults : ctx.faults = .none) (id : Int) :
    ∃ rs, ((Operation.returnToQueue id).perform ctx w).Recovers (.returnToQueue id) w.store
      ctx.now rs := by
  cases hfind : w.store.judgings.find? id with
  | none =>
    have hmissing : ∀ j ∈ w.store.judgings, j.id ≠ id := by
      rintro j hj rfl
      have hfound : w.store.judgings.find? j.id = some j := Table.find?_key hj
      rw [hfind] at hfound
      cases hfound
    have hbody : (returnToQueue id ctx.now).run w = (.error (.notFound (.judging id)), w) := by
      rw [returnToQueue, run_bind_error (run_loadJudging_of_unknown hfind)]
    refine ⟨[], ?_⟩
    rw [Operation.perform, transact_run_error hfaults hbody]
    exact ⟨⟨rfl, hmissing, rfl⟩, Store.recovers_nil (fun j hj hA => hmissing j hj hA.2) rfl,
      fun _ hA => hA, trivial⟩
  | some j =>
    obtain ⟨hj, rfl⟩ := Store.mem_of_find?_judging hfind
    have hload := run_loadJudging hj
    by_cases hl : j.lifecycle = .claimed
    · obtain ⟨r, s', hrun, hrequeues⟩ := run_requeue h hj hl ctx.now
      have hbody : (returnToQueue j.id ctx.now).run w =
          (.ok (.commit (some r) [r.event]), { w with store := s' }) := by
        rw [returnToQueue, run_bind hload, if_pos (Judging.isClaimed_iff.mpr hl), run_bind hrun]
        rfl
      refine ⟨[r], ?_⟩
      rw [Operation.perform, transact_run hfaults hbody]
      refine ⟨rfl, (hrequeues.congr fun i hi => ?_).recovers rfl, fun _ hA => hA, trivial⟩
      constructor
      · rintro rfl
        exact ⟨hl, rfl⟩
      · exact fun hA => Store.judging_eq hi hj hA.2
    · have hfree : ¬ j.isClaimed = true := fun hheld => hl (Judging.isClaimed_iff.mp hheld)
      have hbody : (returnToQueue j.id ctx.now).run w = (.ok (.rollback none), w) := by
        rw [returnToQueue, run_bind hload, if_neg hfree]
        rfl
      refine ⟨[], ?_⟩
      rw [Operation.perform, transact_run_rollback hfaults hbody]
      refine ⟨rfl, Store.recovers_nil (fun i hi hA => ?_) rfl, fun _ hA => hA, trivial⟩
      rw [Store.judging_eq hi hj hA.2] at hA
      exact hl hA.1

/-! ## Sweeping -/

/-- Which judgehosts are stale. -/
theorem isStale_iff {pollTime : Option Instant} {timeout : Span} {now : Instant} :
    isStale pollTime timeout now = true ↔
      pollTime = none ∨ ∃ seen, pollTime = some seen ∧ timeout < now.since seen := by
  cases pollTime with
  | none => simp [isStale]
  | some seen => simp [isStale]

/-- **A sweep** takes back what stale judgehosts hold. -/
theorem recovers_sweepStale (h : w.store.OnCourse) (hfaults : ctx.faults = .none)
    (timeout : Span) :
    ∃ rs, ((Operation.sweepStale timeout).perform ctx w).Recovers (.sweepStale timeout) w.store
      ctx.now rs := by
  obtain ⟨rs, s', hrun, hrequeues⟩ := run_requeueHeldByAny h ((w.store.judgehosts.rows.filter
    fun host => isStale host.pollTime timeout ctx.now).map Judgehost.hostname) ctx.now
  have hrecovers := hrequeues.congr (B := (Operation.sweepStale timeout).TakesBack w.store ctx.now)
    fun j _ => by
      refine and_congr_right fun _ => ?_
      constructor
      · rintro ⟨hostname, hmem, hserver⟩
        obtain ⟨host, hhost, rfl⟩ := List.mem_map.mp hmem
        obtain ⟨hhost, hstale⟩ := List.mem_filter.mp hhost
        exact ⟨host, hhost, hserver, isStale_iff.mp hstale⟩
      · rintro ⟨host, hhost, hserver, hstale⟩
        exact ⟨host.hostname, List.mem_map_of_mem
          (List.mem_filter.mpr ⟨hhost, isStale_iff.mpr hstale⟩), hserver⟩
  cases rs with
  | nil =>
    -- nothing is stale, and the sweep is dropped
    have hbody : (sweepStale timeout ctx.now).run w =
        (.ok (.rollback []), { w with store := s' }) := by
      rw [sweepStale, run_bind (run_ask rfl), run_bind hrun]
      rfl
    refine ⟨[], ?_⟩
    rw [Operation.perform, transact_run_rollback hfaults hbody]
    exact ⟨rfl, Store.recovers_nil (fun j hj => hrecovers.judgings.not_of_nil hj) rfl,
      fun _ hA => hA, trivial⟩
  | cons r rest =>
    have hbody : (sweepStale timeout ctx.now).run w =
        (.ok (.commit (r :: rest) ((r :: rest).map Requeued.event)), { w with store := s' }) := by
      rw [sweepStale, run_bind (run_ask rfl), run_bind hrun]
      rfl
    refine ⟨r :: rest, ?_⟩
    rw [Operation.perform, transact_run hfaults hbody]
    refine ⟨rfl, hrecovers.recovers rfl, fun j hA => ?_, trivial⟩
    have hhosts : s'.judgehosts = w.store.judgehosts := by rw [hrequeues.frame]
    obtain ⟨hl, host, hhost, hserver, hstale⟩ := hA
    exact ⟨hl, host, hhosts ▸ hhost, hserver, hstale⟩

end Recovery

/-! ## Reporting an internal error -/

/-- What is recorded of a report. -/
def IncidentReport.failure (r : IncidentReport) (now : Instant) : NewInternalError :=
  ⟨r.contestId, r.judgingId, r.description, r.judgehostLog, now, r.disabled⟩

namespace Incident

/-- **A judging that is named** is taken back if a judgehost holds it. -/
theorem run_requeueIfClaimed (h : w.store.OnCourse) (id : Int) (now : Instant) :
    ∃ o s', (requeueIfClaimed id now).run w = (.ok o, { w with store := s' }) ∧
      w.store.Requeues (fun j => j.lifecycle = .claimed ∧ j.id = id) now o.toList s' := by
  have hask : (ask (.findJudging id)).run w = (.ok (w.store.judgings.find? id), w) := rfl
  cases hfind : w.store.judgings.find? id with
  | none =>
    refine ⟨none, w.store, ?_, .nil h ?_⟩
    · rw [requeueIfClaimed, run_bind hask, hfind]
      rfl
    · rintro j hj ⟨-, rfl⟩
      have hfound : w.store.judgings.find? j.id = some j := Table.find?_key hj
      rw [hfind] at hfound
      cases hfound
  | some j =>
    obtain ⟨hj, rfl⟩ := Store.mem_of_find?_judging hfind
    by_cases hl : j.lifecycle = .claimed
    · obtain ⟨r, s', hrun, hrequeues⟩ := run_requeue h hj hl now
      refine ⟨some r, s', ?_, hrequeues.congr fun i hi => ?_⟩
      · rw [requeueIfClaimed, run_bind hask, hfind]
        simp only
        rw [if_pos (Judging.isClaimed_iff.mpr hl), map_eq_pure_bind, run_bind hrun]
        rfl
      · constructor
        · rintro rfl
          exact ⟨hl, rfl⟩
        · exact fun hA => Store.judging_eq hi hj hA.2
    · have hfree : ¬ j.isClaimed = true := fun hheld => hl (Judging.isClaimed_iff.mp hheld)
      refine ⟨none, w.store, ?_, .nil h fun i hi hA => ?_⟩
      · rw [requeueIfClaimed, run_bind hask, hfind]
        simp only
        rw [if_neg hfree]
        rfl
      · rw [Store.judging_eq hi hj hA.2] at hA
        exact hl hA.1

/-- A report need not name a judging. -/
theorem run_requeueNamed (h : w.store.OnCourse) (judgingId : Option Int) (now : Instant) :
    ∃ o s', (match judgingId with
        | some id => requeueIfClaimed id now
        | none => pure none : Transaction (Option Requeued)).run w =
          (.ok o, { w with store := s' }) ∧
      w.store.Requeues (fun j => j.lifecycle = .claimed ∧ judgingId = some j.id) now o.toList
        s' := by
  cases judgingId with
  | none =>
    refine ⟨none, w.store, rfl, .nil h ?_⟩
    rintro j - ⟨-, hnamed⟩
    cases hnamed
  | some id =>
    obtain ⟨o, s', hrun, hrequeues⟩ := run_requeueIfClaimed h id now
    refine ⟨o, s', hrun, hrequeues.congr fun j _ => and_congr_right fun _ => ?_⟩
    rw [Option.some.injEq]
    exact eq_comm

/-- **A report** records an internal error, switches its target off and requeues
the judging that it names. -/
theorem run_report (h : w.store.OnCourse) (r : IncidentReport) (now : Instant) :
    ∃ o s', (report r now).run w =
        (.ok (.commit ⟨(w.store.insertInternalError (r.failure now)).1, .ofValue r.disabled, o⟩
          (.internalErrorRaised (w.store.insertInternalError (r.failure now)).1.id
            (w.store.insertInternalError (r.failure now)).1.judgingId
            (DisableTarget.ofValue r.disabled).kind :: (o.map Requeued.event).toList)),
          { w with store := s' }) ∧
      ((w.store.insertInternalError (r.failure now)).2.switch false
        (.ofValue r.disabled)).Requeues
          (fun j => j.lifecycle = .claimed ∧ r.judgingId = some j.id) now o.toList s' := by
  have hraise : Change now w.store _ (w.store.insertInternalError (r.failure now)).2 :=
    .raise (r.failure now) (DisableTarget.ofValue r.disabled) (.inl rfl)
  obtain ⟨known, hswitch⟩ := run_setTargetEnabled
    (w := { w with store := (w.store.insertInternalError (r.failure now)).2 })
    (DisableTarget.ofValue r.disabled) false
  obtain ⟨o, s', hrun, hrequeues⟩ := run_requeueNamed
    (w := { w with
      store := (w.store.insertInternalError (r.failure now)).2.switch false
        (DisableTarget.ofValue r.disabled) }) ((h.change hraise).switch false _) r.judgingId now
  have hinsert : (ask (.insertInternalError (r.failure now))).run w =
      (.ok (w.store.insertInternalError (r.failure now)).1,
        { w with store := (w.store.insertInternalError (r.failure now)).2 }) := rfl
  refine ⟨o, s', ?_, hrequeues⟩
  rw [report]
  simp only
  refine (run_bind hinsert).trans ?_
  rw [run_bind hswitch]
  cases hnamed : r.judgingId with
  | none | some id =>
    rw [hnamed] at hrun
    exact run_bind hrun

/-- **An internal error** takes back the judging that it names. -/
theorem recovers_report (h : w.store.OnCourse) (hfaults : ctx.faults = .none)
    (r : IncidentReport) :
    ∃ rs, ((Operation.reportError r).perform ctx w).Recovers (.reportError r) w.store ctx.now
      rs := by
  obtain ⟨o, s', hbody, hrequeues⟩ := run_report h r ctx.now
  refine ⟨o.toList, ?_⟩
  rw [Operation.perform, transact_run hfaults hbody]
  refine ⟨rfl, hrequeues.recovers ?_, fun _ hA => hA, trivial⟩
  cases DisableTarget.ofValue r.disabled <;> rfl

end Incident

/-! ## All of them -/

namespace World

/-- Whatever takes work back does so as it should. -/
theorem recovers_of_isRecovery {op : Operation α} (h : w.store.OnCourse)
    (hfaults : ctx.faults = .none) (hop : op.IsRecovery w.store) :
    ∃ rs, (op.perform ctx w).Recovers op w.store ctx.now rs := by
  cases op with
  | register hostname =>
    obtain ⟨host, hhost, rfl⟩ := hop
    exact Dispatch.recovers_register h hfaults hhost
  | returnToQueue id => exact Recovery.recovers_returnToQueue h hfaults id
  | sweepStale timeout => exact Recovery.recovers_sweepStale h hfaults timeout
  | reportError r => exact Incident.recovers_report h hfaults r
  | _ => exact hop.elim

/-- **Recovery conserves work.** In a world that arises from supplied rows, a
known judgehost that registers, a request to return a judging, a sweep and a
report of an internal error each abandon just the judgings that they are to
take back, and queue one fresh attempt for each in its place; the answer names
them, each once. Nothing else becomes of judgings, runs, submissions and
statistics. The same request made again at once takes nothing back. -/
theorem perform_recovers {op : Operation α} (h : w.Arises) (hfaults : ctx.faults = .none)
    (hop : op.IsRecovery w.store) :
    ∃ rs, op.Returns w.store (op.perform ctx w).answer rs ∧
      w.store.Recovers (op.TakesBack w.store ctx.now) ctx.now rs (op.perform ctx w).world.store ∧
      op.Returns (op.perform ctx w).world.store
        (op.perform ctx (op.perform ctx w).world).answer [] ∧
      (op.perform ctx w).world.store.Recovers (fun _ => False) ctx.now []
        (op.perform ctx (op.perform ctx w).world).world.store := by
  obtain ⟨rs, hfirst⟩ := recovers_of_isRecovery h.onCourse hfaults hop
  have hnext : (op.perform ctx w).world.Arises := h.steps (Steps.refl.perform op ctx)
  obtain ⟨rs', hsecond⟩ := recovers_of_isRecovery hnext.onCourse hfaults hfirst.again
  -- what would be taken back now would have been taken back before
  have hnone : ∀ j ∈ (op.perform ctx w).world.store.judgings,
      ¬ op.TakesBack (op.perform ctx w).world.store ctx.now j := by
    intro j hj hA
    have hl := hsecond.store.judgings.held j hj hA
    exact (hfirst.store.judgings.mem_of_claimed hj hl).2 (hfirst.later j hA)
  have hnil : rs' = [] := hsecond.store.judgings.eq_nil hnone
  subst hnil
  refine ⟨rs, hfirst.returns, hfirst.store, hsecond.returns, ?_⟩
  exact { hsecond.store with
    judgings := hsecond.store.judgings.congr fun j hj => iff_of_false (hnone j hj) id }

/-- In the small contest, the judgehost registers again while it holds both
judgings, and both are taken back. -/
theorem recovers_contestClaimed :
    contestClaimed.Arises ∧ (Operation.register "host").IsRecovery contestClaimed.store ∧
      ∃ rs, (rs.map fun r => (r.abandoned.submissionId, r.abandoned.id)) = [(1, 1), (2, 2)] ∧
        contestClaimed.store.Recovers
          ((Operation.register "host").TakesBack contestClaimed.store contestContext.now)
          contestContext.now rs (contestClaimed.after (.register "host")).store ∧
        (contestClaimed.after (.register "host")).store.Recovers (fun _ => False)
          contestContext.now [] ((contestClaimed.after (.register "host")).after
            (.register "host")).store := by
  have harises : contestClaimed.Arises := reachable_contestClaimed.arises
  have hfaults : contestContext.faults = .none := rfl
  have hknown : (Operation.register "host").IsRecovery contestClaimed.store := by
    have hhost : ∃ host ∈ contestClaimed.store.judgehosts.rows, host.hostname = "host" := by
      decide +kernel
    exact hhost
  have hanswer : ((Operation.register "host").perform contestContext
      contestClaimed).answer.toOption.map (fun registration => registration.unfinished.map fun u =>
        (u.submissionId, u.judgingId)) = some [(1, 1), (2, 2)] := by
    decide +kernel
  obtain ⟨rs, hreturns, hstore, -, hagain⟩ := perform_recovers harises hfaults hknown
  refine ⟨harises, hknown, rs, ?_, hstore, hagain⟩
  cases hregistered : ((Operation.register "host").perform contestContext
      contestClaimed).answer with
  | error e =>
    rw [hregistered] at hanswer
    cases hanswer
  | ok registration =>
    rw [hregistered] at hanswer hreturns
    exact hreturns.symm.trans (Option.some.inj hanswer)

end World

end JudgeQueue
