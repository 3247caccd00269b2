import JudgeQueue.Proofs.Course.Table
import JudgeQueue.Proofs.Trace.Basic
/-!
# The course of the store

What the rows numbered by the service become, change by change: judgings take
their course, runs stay as they are recorded, rejudgings are decided and
internal errors closed once. No id is given twice, and the events of a change
tell just what has happened to judgings and which errors have been raised.
-/

namespace JudgeQueue

/-- What may become of a rejudging: nothing but that it is decided, once. -/
structure Rejudging.Follows (q q' : Rejudging) : Prop where
  same : q' = { q with
    applied := q'.applied
    endTime := q'.endTime
    operatedBy := q'.operatedBy }
  decided : q.applied ≠ none → q' = q

instance : Lineage Rejudging.Follows where
  refl _ := ⟨rfl, fun _ => rfl⟩
  trans {q p r} h h' := by
    refine ⟨?_, fun hdecided => ?_⟩
    · rw [h'.same, h.same]
    · have hp := h.decided hdecided
      rw [hp] at h'
      exact h'.decided hdecided
  key_eq h := by
    rw [h.same]
    rfl

namespace InternalError

/-- The event that tells of the error. -/
def raised (e : InternalError) : Event :=
  .internalErrorRaised e.id e.judgingId e.target.kind

/-- The error with another status. -/
def marked (status : ErrorStatus) (e : InternalError) : InternalError :=
  { e with status }

theorem key_marked (status : ErrorStatus) (e : InternalError) : key (e.marked status) = key e := rfl

theorem raised_marked (status : ErrorStatus) (e : InternalError) :
    (e.marked status).raised = e.raised := rfl

/-- What may become of an internal error: nothing but that it is closed,
once. -/
structure Follows (e e' : InternalError) : Prop where
  same : e' = { e with status := e'.status }
  closed : e.status ≠ .opened → e' = e

instance : Lineage Follows where
  refl _ := ⟨rfl, fun _ => rfl⟩
  trans {e f g} h h' := by
    refine ⟨?_, fun hclosed => ?_⟩
    · rw [h'.same, h.same]
    · have hf := h.closed hclosed
      rw [hf] at h'
      exact h'.closed hclosed
  key_eq h := by
    rw [h.same]
    rfl

end InternalError

/-- **A target is read back from the form in which it is stored**, if the
number of a problem fits in 64 bits. -/
theorem DisableTarget.ofValue_toValue {t : DisableTarget}
    (h : ∀ id, t = .problem id → isInt64 id = true) : ofValue t.toValue = t := by
  cases t with
  | problem id =>
    have hid := h id rfl
    rw [isInt64, Bool.and_eq_true, decide_eq_true_eq, decide_eq_true_eq] at hid
    have hread : Json.Reader.int64 (.number (some (.int id))) = .ok id := by
      simp only [Json.Reader.int64, Json.Reader.intBetween]
      rw [if_pos hid]
    have hform : (problem <$> Json.Form.required "problem_id" .int64).read
        (.object [(some "problem_id", .number (some (.int id)))]) = .ok (problem id) := by
      simp [Json.Form.read, Functor.map, Json.Form.required, Json.Form.field, Json.Form.scan,
        Json.Form.pure, Json.Form.seq, hread, Json.Form.find, bind, Except.bind, Except.map]
    change ((problem <$> Json.Form.required "problem_id" .int64).read
      (.object [(some "problem_id", .number (some (.int id)))])).toOption.getD unknown = _
    rw [hform]
    rfl
  | _ => rfl

namespace Store

/-- The numbers of problems fit in 64 bits. -/
def Fits (s : Store) : Prop :=
  ∀ p ∈ s.problems, isInt64 p.id = true

/-- The store is sound, its judgings have their shape, and its internal errors
are numbered in order. -/
structure OnCourse (s : Store) : Prop where
  sound : s.Sound
  shaped : ∀ j ∈ s.judgings, j.Shaped
  error_le : ∀ e ∈ s.internalErrors, e.id ≤ s.lastInternalError

/-- A store has become another, and events tell of the way between. -/
structure Unfolds (s : Store) (es : List Event) (s' : Store) : Prop where
  judgings : s.judgings.Course s.lastJudging es s'.judgings s'.lastJudging
  runs : s.runs.Grows Eq s.lastRun s'.runs s'.lastRun
  rejudgings :
    s.rejudgings.Grows Rejudging.Follows s.lastRejudging s'.rejudgings s'.lastRejudging
  internalErrors : s.internalErrors.Grows InternalError.Follows s.lastInternalError
    s'.internalErrors s'.lastInternalError
  raised : s.Fits → ∀ id, s'.internalErrors.tale (fun e => [e.raised]) id =
    s.internalErrors.tale (fun e => [e.raised]) id ++ es.filter (Event.raises id)
  problems : ∀ p' ∈ s'.problems, ∃ p ∈ s.problems, p'.id = p.id

variable {now : Instant} {s s₁ s' : Store} {es fs : List Event}

theorem Unfolds.fits (h : s.Unfolds es s') (hs : s.Fits) : s'.Fits := by
  intro p' hp'
  obtain ⟨p, hp, hid⟩ := h.problems p' hp'
  rw [hid]
  exact hs p hp

theorem Unfolds.refl (h : s.OnCourse) : s.Unfolds [] s where
  judgings := .refl h.shaped _ fun _ => rfl
  runs := .refl _ _
  rejudgings := .refl _ _
  internalErrors := .refl _ _
  raised _ _ := (List.append_nil _).symm
  problems p hp := ⟨p, hp, rfl⟩

theorem Unfolds.trans (h : s.Unfolds es s₁) (h' : s₁.Unfolds fs s') :
    s.Unfolds (es ++ fs) s' where
  judgings := h.judgings.trans h'.judgings
  runs := h.runs.trans h'.runs
  rejudgings := h.rejudgings.trans h'.rejudgings
  internalErrors := h.internalErrors.trans h'.internalErrors
  raised hs id := by
    rw [h'.raised (h.fits hs), h.raised hs, List.filter_append, List.append_assoc]
  problems p hp := by
    obtain ⟨p₁, hp₁, hid⟩ := h'.problems p hp
    obtain ⟨p₀, hp₀, hid₀⟩ := h.problems p₁ hp₁
    exact ⟨p₀, hp₀, hid.trans hid₀⟩

/-! ## Kinds of changes -/

/-- Only judgings change, and what the service does not number. -/
theorem unfolds_of_course (hc : s.judgings.Course s.lastJudging es s'.judgings s'.lastJudging)
    (hes : ∀ id, es.filter (Event.raises id) = [])
    (hframe : s' = { s' with
      problems := s.problems
      runs := s.runs
      lastRun := s.lastRun
      rejudgings := s.rejudgings
      lastRejudging := s.lastRejudging
      internalErrors := s.internalErrors
      lastInternalError := s.lastInternalError }) : s.Unfolds es s' := by
  rw [hframe]
  refine ⟨hc, .refl _ _, .refl _ _, .refl _ _, fun _ id => ?_, fun p hp => ⟨p, hp, rfl⟩⟩
  rw [hes, List.append_nil]

/-- Events about judgings raise no errors. -/
theorem filter_raises_ite {c : Prop} [Decidable c] {j : Judging} (id : Int) :
    (if c then [j.finished] else []).filter (Event.raises id) = [] := by
  split <;> rfl

/-- An internal error is raised. -/
theorem OnCourse.unfolds_raise (h : s.OnCourse) (new : NewInternalError) {target : DisableTarget}
    (htarget : target = .ofValue new.disabled ∨
      s.Catalogues target ∧ new.disabled = target.toValue) :
    s.Unfolds [.internalErrorRaised (s.lastInternalError + 1) new.judgingId target.kind]
      (s.insertInternalError new).2 where
  judgings := .refl h.shaped _ fun _ => rfl
  runs := .refl _ _
  rejudgings := .refl _ _
  internalErrors := Table.grows_insert rfl
  raised hfits id := by
    -- what is stored reads back as the target that is switched off
    have hkind : (new.opened (s.lastInternalError + 1)).target = target := by
      change DisableTarget.ofValue new.disabled = target
      rcases htarget with rfl | ⟨hcatalogued, heq⟩
      · rfl
      · rw [heq]
        refine DisableTarget.ofValue_toValue fun problemId hproblem => ?_
        rw [hproblem] at hcatalogued
        obtain ⟨p, hp, hid⟩ := Table.contains_iff.mp hcatalogued
        rw [← hid]
        exact hfits p hp
    have hfresh : ∀ e ∈ s.internalErrors, key e ≠ key (new.opened (s.lastInternalError + 1)) := by
      intro e he heq
      have hle := h.error_le e he
      have heq : e.id = s.lastInternalError + 1 := heq
      omega
    have htable : (s.insertInternalError new).2.internalErrors =
        s.internalErrors.insert (new.opened (s.lastInternalError + 1)) := rfl
    rw [htable, Table.tale_insert hfresh, InternalError.raised, hkind]
    simp only [List.filter_cons, List.filter_nil, Event.raises, decide_eq_true_eq]
    rfl
  problems p hp := ⟨p, hp, rfl⟩

/-- An internal error is closed. -/
theorem OnCourse.unfolds_close (h : s.OnCourse) {e : InternalError} {status : ErrorStatus}
    (he : e ∈ s.internalErrors) (hopen : e.status = .opened) :
    s.Unfolds []
      { s with
        internalErrors := s.internalErrors.modify e.id ({ · with status }) fun _ => rfl } where
  judgings := .refl h.shaped _ fun _ => rfl
  runs := .refl _ _
  rejudgings := .refl _ _
  internalErrors := by
    refine Table.grows_modify (InternalError.key_marked status) fun e' he' hid =>
      ⟨rfl, fun hclosed => ?_⟩
    rw [Table.eq_of_key_eq he' he hid] at hclosed
    exact absurd hopen hclosed
  raised _ id := by
    refine Table.tale_update (InternalError.key_marked status) (fun e' _ _ => ?_) fun _ => rfl
    rw [List.filter_nil, List.append_nil]
    split
    · rw [InternalError.raised_marked]
    · rfl
  problems p hp := ⟨p, hp, rfl⟩

/-- A testcase goes with its runs. -/
theorem OnCourse.unfolds_deleteTestcase (h : s.OnCourse) (id : Int) :
    s.Unfolds [] (s.deleteTestcase id).2 where
  judgings := .refl h.shaped _ fun _ => rfl
  runs := Table.grows_keep
  rejudgings := .refl _ _
  internalErrors := .refl _ _
  raised _ _ := (List.append_nil _).symm
  problems p hp := ⟨p, hp, rfl⟩

/-- A problem is switched on or off. -/
theorem OnCourse.unfolds_setProblemAllowed (h : s.OnCourse) (id : Int) (allow : Bool) :
    s.Unfolds [] (s.setProblemAllowed id allow) where
  judgings := .refl h.shaped _ fun _ => rfl
  runs := .refl _ _
  rejudgings := .refl _ _
  internalErrors := .refl _ _
  raised _ _ := (List.append_nil _).symm
  problems p' hp' := by
    rw [setProblemAllowed, Table.mem_modify] at hp'
    rcases hp' with ⟨p, hp, -, rfl⟩ | ⟨hp, -⟩
    · exact ⟨p, hp, rfl⟩
    · exact ⟨p', hp, rfl⟩

/-- Runs are recorded under the next ids. -/
theorem grows_recordRuns (s : Store) (id : Int) (now : Instant) (reports : List RunReport) :
    s.runs.Grows Eq s.lastRun (s.recordRuns id now reports).runs
      (s.recordRuns id now reports).lastRun := by
  induction reports generalizing s with
  | nil => exact .refl _ _
  | cons r rest ih =>
    have hinsert : s.runs.Grows Eq s.lastRun
        (s.insertRun (Grading.RunReport.toRun r id now)).2.runs
        (s.insertRun (Grading.RunReport.toRun r id now)).2.lastRun := Table.grows_insert rfl
    exact hinsert.trans (ih _)

theorem recordRuns_frame (s : Store) (id : Int) (now : Instant) (reports : List RunReport) :
    s.recordRuns id now reports = { s with
      runs := (s.recordRuns id now reports).runs
      lastRun := (s.recordRuns id now reports).lastRun } := by
  obtain ⟨runs, hrecorded⟩ := s.exists_recordRuns id now reports
  rw [hrecorded]

/-- A judging is graded. -/
theorem OnCourse.unfolds_grade (h : s.OnCourse) {j : Judging} (hj : j ∈ s.judgings)
    (hl : j.lifecycle = .claimed) {reports : List RunReport}
    (hverdict : ∀ p ∈ reports, p.verdict.isRunVerdict = true) (problemId : Int) (now : Instant) :
    s.Unfolds
      (if (Summary.ofRuns ((s.recordRuns j.id now reports).runsOf j.id)
          (s.testcasesOf problemId)).isComplete j.fullTest (s.testcasesOf problemId).length
        then [j.finished] else [])
      (s.grade j.id problemId reports now) := by
  have hruns : ∀ n ∈ (s.recordRuns j.id now reports).runsOf j.id, n.verdict.isRunVerdict = true :=
    fun n hn => runsGraded_recordRuns hverdict h.sound.runs j.id now n (Table.mem_filter.mp hn).1
  have hlead := Judging.leads_graded hl (h.shaped j hj) hruns (s.testcasesOf problemId)
    (Grading.fragment reports) now
  have hcourse := Table.course_modify (n := s.lastJudging) h.shaped hj
    (Grading.key_graded · _ _ _ now) hlead fun e he id => by
      split at he
      · rw [List.mem_singleton.mp he]
        exact j.tellsOf_finished id
      · cases he
  -- recording runs touches nothing else
  have hgraded : s.Unfolds _ { s with judgings := (s.grade j.id problemId reports now).judgings } :=
    unfolds_of_course hcourse (fun id => filter_raises_ite id) rfl
  have hstore : s.grade j.id problemId reports now = { s with
      judgings := (s.grade j.id problemId reports now).judgings
      runs := (s.recordRuns j.id now reports).runs
      lastRun := (s.recordRuns j.id now reports).lastRun } :=
    congrArg (fun t : Store => { t with
      judgings := (s.grade j.id problemId reports now).judgings })
      (recordRuns_frame s j.id now reports)
  rw [hstore]
  exact { hgraded with runs := s.grows_recordRuns j.id now reports }

/-- A submission is rejudged. -/
theorem OnCourse.unfolds_rejudge (h : s.OnCourse) (submissionId : Int) (fullTest : Bool) :
    s.Unfolds [] (s.rejudge submissionId fullTest) := by
  have hretired : s.judgings.Course s.lastJudging []
      (s.judgings.update (fun j => j.submissionId = submissionId) Judging.retired
        Judging.key_retired) s.lastJudging :=
    Table.course_update_silent h.shaped Judging.key_retired fun j hj _ =>
      Judging.leads_retired (h.shaped j hj)
  have hqueued := Table.course_queue hretired.shaped
    (hretired.grows.drawn h.sound.numbered.judging_le)
    ⟨submissionId, true, fullTest, none, (s.activeOf submissionId).map Judging.id⟩
  exact unfolds_of_course (hretired.trans hqueued) (fun _ => rfl) rfl

/-- A claimed judging is abandoned, and its replacement joins. -/
theorem OnCourse.unfolds_replace (h : s.OnCourse) {j : Judging} (hj : j ∈ s.judgings)
    (hl : j.lifecycle = .claimed) (now : Instant) :
    s.Unfolds [j.finished] (s.replace j now) := by
  have hqueued := Table.course_queue h.shaped h.sound.numbered.judging_le (.replacing j)
  have hmem : j ∈ s.judgings.insert ((NewJudging.replacing j).queued (s.lastJudging + 1)) :=
    (mem_judgings_queue h.sound.numbered).mpr (.inr hj)
  have habandoned := Table.course_modify (n := s.lastJudging + 1) hqueued.shaped hmem
    (JudgingPatch.abandon now).key_apply (Judging.leads_abandon hl (h.shaped j hj) now)
    fun e he id => by
      rw [List.mem_singleton.mp he]
      exact j.tellsOf_finished id
  exact unfolds_of_course (hqueued.trans habandoned) (fun _ => rfl) rfl

/-- A rejudging is decided that is open. -/
theorem grows_decided {q : Rejudging} (hq : q ∈ s.rejudgings) (hopen : q.applied = none)
    (applied : Bool) (now : Instant) (operator : Option Int) :
    s.rejudgings.Grows Rejudging.Follows s.lastRejudging
      (s.decided q.id applied now operator) s.lastRejudging := by
  refine Table.grows_modify (fun p => p.key_decide applied now operator) fun p hp hid =>
    ⟨rfl, fun hdecided => ?_⟩
  rw [rejudging_eq hp hq hid] at hdecided
  exact absurd hopen hdecided

/-- A rejudging is applied. -/
theorem OnCourse.unfolds_apply (h : s.OnCourse) {q : Rejudging} (hq : q ∈ s.rejudgings)
    (hopen : q.applied = none)
    (hdone : ∀ j ∈ s.judgings, j.rejudgingId = some q.id → j.lifecycle = .finalized)
    (now : Instant) (operator : Option Int) :
    s.Unfolds [] (s.applyRejudging q.id now operator) where
  judgings := Table.course_update_silent h.shaped (Judging.key_settled q.id) fun j hj _ =>
    Judging.leads_settled (h.shaped j hj) (hdone j hj)
  runs := .refl _ _
  rejudgings := grows_decided hq hopen true now operator
  internalErrors := .refl _ _
  raised _ _ := (List.append_nil _).symm
  problems p hp := ⟨p, hp, rfl⟩

/-- A rejudging is cancelled. Its queued candidates go before the claimed ones
are abandoned, and only these are told of. -/
theorem OnCourse.unfolds_cancel (h : s.OnCourse) {q : Rejudging} (hq : q ∈ s.rejudgings)
    (hopen : q.applied = none) (now : Instant) (operator : Option Int) :
    s.Unfolds ((s.judgings.filter fun j => j.rejudgingId = some q.id && j.isClaimed).map
      Judging.finished) (s.cancelRejudging q.id now operator) where
  judgings := by
    have hdropped := Table.course_keep (n := s.lastJudging) h.shaped
      (p := fun j => !(decide (j.rejudgingId = some q.id) && j.isQueued)) fun j _ hp => by
        rw [Bool.not_eq_false', Bool.and_eq_true] at hp
        exact Judging.isQueued_iff.mp hp.2
    refine hdropped.trans (Table.course_update (JudgingPatch.abandon now).key_apply
      (fun j hj => ?_) fun id hmissing => ?_)
    · have hmem := (Table.mem_keep.mp hj).1
      rw [Table.filter_tellsOf_finished hmem]
      split
      · next hheld =>
        rw [Bool.and_eq_true] at hheld
        exact Judging.leads_abandon (Judging.isClaimed_iff.mp hheld.2) (h.shaped j hmem) now
      · exact Judging.leads_refl (h.shaped j hmem)
    · by_cases hknown : ∃ j ∈ s.judgings, j.id = id
      · obtain ⟨j, hj, rfl⟩ := hknown
        -- a candidate that has gone was queued, so it is not told of
        have hgone : ¬ (decide (j.rejudgingId = some q.id) && j.isClaimed) = true := by
          intro hheld
          rw [Bool.and_eq_true] at hheld
          refine hmissing j (Table.mem_keep.mpr ⟨hj, ?_⟩) rfl
          simp [Judging.isQueued, Judging.isClaimed_iff.mp hheld.2]
        rw [Table.filter_tellsOf_finished hj, if_neg hgone]
      · refine Table.filter_tellsOf_finished_of_missing fun j hj hid => ?_
        exact hknown ⟨j, hj, hid⟩
  runs := Table.grows_keep
  rejudgings := grows_decided hq hopen false now operator
  internalErrors := .refl _ _
  raised _ id := by
    have hnone : ((s.judgings.filter fun j => j.rejudgingId = some q.id && j.isClaimed).map
        Judging.finished).filter (Event.raises id) = [] := by
      rw [List.filter_eq_nil_iff]
      intro e he
      obtain ⟨j, -, rfl⟩ := List.mem_map.mp he
      exact Bool.false_ne_true
    rw [hnone, List.append_nil]
    rfl
  problems p hp := ⟨p, hp, rfl⟩

/-! ## All changes -/

/-- **What a store on its course unfolds to is on its course.** -/
theorem Unfolds.onCourse (h : s.Unfolds es s') (hs : s.OnCourse) (hsound : s'.Sound) :
    s'.OnCourse :=
  ⟨hsound, h.judgings.shaped, h.internalErrors.drawn hs.error_le⟩

theorem OnCourse.unfolds_rejudged {ds : List StatisticsDelta} (h : s.OnCourse)
    (hr : Rejudged s ds s') : s.Unfolds [] s' := by
  induction hr with
  | none => exact .refl h
  | @next s _ r _ _ fullTest hr _ _ _ _ ih =>
    have hstep := h.unfolds_rejudge r.id fullTest
    exact hstep.trans (ih (hstep.onCourse h (h.sound.rejudge hr fullTest)))

/-- **Every change unfolds a store on its course.** -/
theorem OnCourse.unfolds (h : s.OnCourse) (hc : Change now s es s') : s.Unfolds es s' := by
  cases hc with
  | addJudgehost | touchJudgehost | switchJudgehost | switchLanguage =>
    exact unfolds_of_course (.refl h.shaped _ fun _ => rfl) (fun _ => rfl) rfl
  | switchProblem id allow => exact h.unfolds_setProblemAllowed id allow
  | raise new target htarget => exact h.unfolds_raise new htarget
  | close he hopen hclosing => exact h.unfolds_close he hopen
  | removeTestcase ht hidle => exact h.unfolds_deleteTestcase _
  | enqueue hr hidle =>
    exact unfolds_of_course (Table.course_queue h.shaped h.sound.numbered.judging_le _)
      (fun _ => rfl) rfl
  | @claim j hostname hhost hj =>
    obtain ⟨hmem, hl⟩ := mem_of_nextDispatchable hj
    refine unfolds_of_course (Table.course_modify h.shaped hmem (Judging.key_claimedBy · _ now)
      (Judging.leads_claimedBy hl (h.shaped j hmem) hostname now) fun e he id => ?_)
      (fun _ => rfl) rfl
    rw [List.mem_singleton.mp he]
    rfl
  | @putBack j hj =>
    obtain ⟨hmem, hl⟩ := mem_of_nextDispatchable hj
    -- it had no judgehost, so nothing changes
    refine unfolds_of_course (Table.course_modify h.shaped hmem Judging.key_unclaimed ?_
      fun e he => by cases he) (fun _ => rfl) rfl
    rw [Judging.unclaimed_eq hl (h.shaped j hmem)]
    exact Judging.leads_refl (h.shaped j hmem)
  | @compile j hostname hj hheld success output =>
    have hl := Judging.lifecycle_of_isClaimedBy hheld
    refine unfolds_of_course (Table.course_modify h.shaped hj
      (Dispatch.key_compiled · success output now)
      (Judging.leads_compiled hl (h.shaped j hj) success output now) fun e he id => ?_) ?_ rfl
    · cases success with
      | true => cases he
      | false =>
        rw [List.mem_singleton.mp he]
        exact j.tellsOf_finished id
    · intro id
      cases success <;> rfl
  | grade hj hheld hr hsub hverdict _ _ _ =>
    exact h.unfolds_grade hj (Judging.lifecycle_of_isClaimedBy hheld) hverdict _ now
  | requeue hj hheld _ => exact h.unfolds_replace hj (Judging.isClaimed_iff.mp hheld) now
  | rejudge hr _ =>
    have hrejudged := h.unfolds_rejudged hr
    exact { hrejudged with }
  | openRejudging new =>
    exact { Unfolds.refl h with rejudgings := Table.grows_insert rfl }
  | propose hq hopen hr hfree hcontest hj hsub _ fullTest =>
    exact unfolds_of_course (Table.course_queue h.shaped h.sound.numbered.judging_le _)
      (fun _ => rfl) rfl
  | apply hq hopen hdone operator _ =>
    have happlied := h.unfolds_apply hq hopen
      (fun j hj hid => Judging.isFinalized_iff.mp (hdone j hj hid)) now operator
    exact { happlied with }
  | cancel hq hopen operator => exact h.unfolds_cancel hq hopen now operator
  | count id _ =>
    exact unfolds_of_course (Table.course_update_silent h.shaped Judging.key_flagged
      fun j hj _ => Judging.leads_flagged (h.shaped j hj)) (fun _ => rfl) rfl
  | rebuild contestId =>
    exact unfolds_of_course (Table.course_update_silent h.shaped Judging.key_reflagged
      fun j hj _ => Judging.leads_reflagged (h.shaped j hj)) (fun _ => rfl) rfl

/-- Every change leaves a store on its course there. -/
theorem OnCourse.change (h : s.OnCourse) (hc : Change now s es s') : s'.OnCourse :=
  (h.unfolds hc).onCourse h (h.sound.change hc)

/-- **Every trace unfolds a store on its course**, and leaves it there. -/
theorem OnCourse.unfolds_trace (h : s.OnCourse) (ht : Trace now s es s') :
    s.Unfolds es s' ∧ s'.OnCourse := by
  induction ht with
  | refl => exact ⟨.refl h, h⟩
  | step hc _ ih =>
    obtain ⟨hrest, hlast⟩ := ih (h.change hc)
    exact ⟨(h.unfolds hc).trans hrest, hlast⟩

end Store

end JudgeQueue
