import JudgeQueue.Proofs.Trace.Rejudge
/-!
# Traces of requests — rejudgings

A batch marks all its submissions and then queues all their candidates. What
it marks and what it queues do not meet, so the batch is the same as one
candidate after another. Applying and cancelling change the judgings by
filters of ids, which come to the candidates of the rejudging.
-/

namespace JudgeQueue

open Transaction StatisticsDelta

variable {now : Instant} {s : Store}

namespace Store

/-! ## Submissions and rejudgings in the form of changes -/

theorem setSubmissionsRejudging_ofIds (rejudgingId : Int) (ids : List Int) :
    (s.setSubmissionsRejudging (.ofIds ids) (some rejudgingId)).2 = s.mark rejudgingId ids := by
  have hadmits : (SubmissionFilter.ofIds ids).admits = fun r => ids.contains r.id := by
    funext r
    simp [SubmissionFilter.admits, SubmissionFilter.ofIds]
  rw [setSubmissionsRejudging, hadmits]
  rfl

/-- Marking the first submission before the others is marking all. -/
theorem mark_cons (rejudgingId id : Int) (ids : List Int) :
    s.mark rejudgingId (id :: ids) =
      Store.mark { s with
        submissions := s.submissions.modify id (.moved (some rejudgingId))
          (Submission.key_moved (some rejudgingId)) } rejudgingId ids := by
  have hsub : (s.submissions.modify id (.moved (some rejudgingId))
      (Submission.key_moved (some rejudgingId))).update (fun r => ids.contains r.id)
        (.moved (some rejudgingId)) (Submission.key_moved (some rejudgingId)) =
      s.submissions.update (fun r => (id :: ids).contains r.id) (.moved (some rejudgingId))
        (Submission.key_moved (some rejudgingId)) := by
    refine Table.update_update fun r _ => ?_
    by_cases hid : r.id = id <;> by_cases hmem : r.id ∈ ids <;>
      simp [key, hid, hmem, Submission.moved]
  exact congrArg (fun submissions => { s with submissions }) hsub.symm

/-- Lets the submissions of a rejudging go, and decides it. -/
def conclude (s : Store) (id : Int) (applied : Bool) (now : Instant) (operator : Option Int) :
    Store :=
  { s with submissions := s.release id, rejudgings := s.decided id applied now operator }

/-- **Concluding an open rejudging** in two steps, of which the second writes
back the decision. -/
theorem updateRejudging_decide {q : Rejudging} (hq : q ∈ s.rejudgings) (hopen : q.applied = none)
    (applied : Bool) (now : Instant) (operator : Option Int) :
    (s.setSubmissionsRejudging (.ofRejudging q.id) none).2.updateRejudging
      (q.decide applied now operator) = .ok (s.conclude q.id applied now operator) := by
  have hadmits : (SubmissionFilter.ofRejudging q.id).admits =
      fun r => decide (r.rejudgingId = some q.id) := by
    funext r
    simp [SubmissionFilter.admits, SubmissionFilter.ofRejudging]
  have hfind : s.rejudgings.find? (q.decide applied now operator).id = some q := Table.find?_key hq
  have hwrite : (s.rejudgings.modify q.id
      (fun p => { q.decide applied now operator with id := p.id }) fun _ => rfl) =
      s.decided q.id applied now operator := by
    refine Table.modify_congr fun p hp hkey => ?_
    rw [rejudging_eq hp hq hkey]
    rfl
  rw [updateRejudging, setSubmissionsRejudging, hadmits]
  simp only [hfind, hopen, Option.isSome_none, Bool.false_eq_true, if_false]
  exact congrArg
    (fun rejudgings => Except.ok { s with submissions := s.release q.id, rejudgings }) hwrite

end Store

namespace Rejudge

theorem ensures_loadOpen {id : Int} {Q : Rejudging → Store → Prop}
    (h : ∀ q ∈ s.rejudgings, q.id = id → q.applied = none → Q q s) :
    (loadOpen id).Ensures s Q := by
  simp only [loadOpen, ensures_bind, ensures_ask, Query.run, ensures_need, ensures_unlessError,
    ensures_pure]
  intro q hq hopen
  refine h q (Table.mem_of_find? hq) (Table.key_of_find? hq) ?_
  rwa [Rejudging.isOpen, Option.isNone_iff_eq_none] at hopen

theorem traces_create (new : NewRejudging) (now : Instant) : (create new now).Traces now s := by
  simp only [Traces, create, commits_bind, ensures_ask, Query.run]
  exact commits_commit.mpr (.of_change (.openRejudging new))

theorem traces_get (id : Int) : (get id).Traces now s := by
  simp only [Traces, get, commits_bind, ensures_ask, Query.run, ensures_need]
  exact fun q _ => traces_commit _

/-! ## Batches -/

theorem ensures_checkRejudging (contestId : Int) (rejudgingId : Option Int) :
    (checkRejudging contestId rejudgingId).Ensures s fun _ s' =>
      s' = s ∧ ∀ id, rejudgingId = some id →
        ∃ q ∈ s.rejudgings, q.id = id ∧ q.applied = none ∧ q.contestId = contestId := by
  cases rejudgingId with
  | none => exact ⟨rfl, fun id hid => by cases hid⟩
  | some id =>
    simp only [checkRejudging, ensures_bind, ensures_unlessError]
    refine ensures_loadOpen fun q hq hid hopen hcontest => ⟨rfl, fun id' hid' => ?_⟩
    cases hid'
    exact ⟨q, hq, hid, hopen, of_decide_eq_true hcontest⟩

theorem ensures_insertAll (news : List NewJudging) :
    (insertAll news).Ensures s fun _ s' => s' = news.foldl Store.queue s := by
  induction news generalizing s with
  | nil => exact rfl
  | cons new rest ih =>
    simp only [insertAll, ensures_bind, ensures_ask, Query.run, Store.insertJudging_eq,
      ensures_pure]
    split
    · next hinsert =>
      split at hinsert
      · cases hinsert
        exact ih
      · cases hinsert
    · trivial

/-- **Marking all submissions and then queueing all candidates** is proposing
one candidate after another. -/
theorem foldl_queue_mark (id : Int) (fullTest : Bool) (ms : List (Submission × Judging)) :
    (ms.map fun m => candidate id fullTest m.2).foldl Store.queue
      (s.mark id (ms.map fun m => m.1.id)) =
      ms.foldl (fun s m => s.propose m.1.id id m.2 fullTest) s := by
  induction ms generalizing s with
  | nil =>
    have hsub : s.submissions.update (fun r => [].contains r.id) (.moved (some id))
        (Submission.key_moved (some id)) = s.submissions :=
      Table.update_eq_self fun r _ hr => by simp at hr
    exact congrArg (fun submissions => { s with submissions }) hsub
  | cons m rest ih =>
    rw [List.map_cons, List.map_cons, List.foldl_cons, List.foldl_cons, Store.mark_cons, ← ih]
    rfl

/-- **Proposing candidates** for matched submissions of the contest is a
silent trace. -/
theorem trace_propose {q : Rejudging} (hs : s.Sound) (hq : q ∈ s.rejudgings)
    (hopen : q.applied = none) (fullTest : Bool) {ms : List (Submission × Judging)}
    (hms : ∀ m ∈ ms, IsMatch s m ∧ m.1.contestId = q.contestId)
    (hnodup : (ms.map fun m => m.1.id).Nodup) :
    Trace now s [] (ms.foldl (fun s m => s.propose m.1.id q.id m.2 fullTest) s) := by
  induction ms generalizing s with
  | nil => exact .refl
  | cons m rest ih =>
    obtain ⟨hm, hcontest⟩ := hms m List.mem_cons_self
    obtain ⟨hne, hrest⟩ := List.nodup_cons.mp hnodup
    have hc : Change now s _ _ := .propose hq hopen hm.submission hm.free hcontest hm.judging
      hm.submissionId hm.active fullTest
    refine .silent hc (ih (hs.change hc) hq (fun m' hm' => ?_) hrest)
    obtain ⟨hmatch, hcontest'⟩ := hms m' (List.mem_cons_of_mem m hm')
    -- the submissions are distinct, so the other matches are left alone
    have hid : m'.1.id ≠ m.1.id := fun heq => hne (List.mem_map.mpr ⟨m', hm', heq⟩)
    exact ⟨⟨Store.mem_submissions_propose.mpr (.inr ⟨hmatch.submission, hid⟩), hmatch.free,
      (Store.mem_judgings_propose hs.numbered).mpr (.inr hmatch.judging), hmatch.submissionId,
      hmatch.active⟩, hcontest'⟩

/-- What a batch selects from the submissions outside of any rejudging. -/
theorem isMatch_of_mem_matching {selection : Selection} {m : Submission × Judging}
    {ids : List Int} (h : m ∈ matching selection
      (s.submissions.filter (SubmissionFilter.admits
        { contestId := some selection.contestId, rejudgingId := some none }))
      (s.judgings.filter (JudgingFilter.admits
        { submissionIds := some ids, active := some true }))) :
    IsMatch s m ∧ m.1.contestId = selection.contestId := by
  obtain ⟨hr, hj, hsub⟩ := mem_of_mem_matching h
  obtain ⟨hr, hradmits⟩ := Table.mem_filter.mp hr
  obtain ⟨hj, hjadmits⟩ := Table.mem_filter.mp hj
  simp only [SubmissionFilter.admits, Option.all_none, Option.all_some, Bool.true_and,
    Bool.and_true, Bool.and_eq_true, decide_eq_true_eq] at hradmits
  simp only [JudgingFilter.admits, Option.all_none, Option.all_some, Bool.true_and, Bool.and_true,
    Bool.and_eq_true, decide_eq_true_eq] at hjadmits
  exact ⟨⟨hr, hradmits.2, hj, hsub, hjadmits.2⟩, hradmits.1⟩

theorem traces_batch (hs : s.Sound) (selection : Selection) (rejudgingId : Option Int)
    (fullTest : Bool) : (batch selection rejudgingId fullTest).Traces now s := by
  simp only [Traces, batch, commits_bind]
  refine (ensures_checkRejudging _ _).mono ?_
  rintro _ t ⟨rfl, hcheck⟩
  simp only [ensures_ask, Query.run]
  generalize hmatched : matching selection _ _ = matched
  have hms : ∀ m ∈ matched, IsMatch t m ∧ m.1.contestId = selection.contestId :=
    fun m hm => isMatch_of_mem_matching (hmatched ▸ hm)
  have hnodup : (matched.map fun m => m.1.id).Nodup := by
    rw [← hmatched]
    exact nodup_matching (t.submissions.nodup_keys.sublist (List.filter_sublist.map _))
  cases rejudgingId with
  | none =>
    simp only [commits_bind]
    refine (ensures_replaceAll fullTest hs (fun m hm => (hms m hm).1) hnodup).mono ?_
    intro out t' hr
    simp only [ensures_ask, Query.run]
    exact commits_commit.mpr (.of_change (.rejudge hr fun k => sumAt_mergeAll))
  | some id =>
    obtain ⟨q, hq, rfl, hopen, hcontest⟩ := hcheck id rfl
    simp only [commits_bind, ensures_ask, Query.run, Store.setSubmissionsRejudging_ofIds]
    refine (ensures_insertAll _).mono ?_
    rintro judgings _ rfl
    rw [foldl_queue_mark, commits_commit]
    exact trace_propose hs hq hopen fullTest
      (fun m hm => ⟨(hms m hm).1, (hms m hm).2.trans hcontest.symm⟩) hnodup

/-! ## Applying -/

theorem admits_ofRejudging (id : Int) (j : Judging) :
    (JudgingFilter.ofRejudging id).admits j = decide (j.rejudgingId = some id) := by
  simp [JudgingFilter.admits, JudgingFilter.ofRejudging]

/-- Whether a submission has a candidate, told by the submissions of the
candidates. -/
theorem contains_submissionIds (id submissionId : Int) :
    ((s.judgings.filter (JudgingFilter.ofRejudging id).admits).map
      Judging.submissionId).contains submissionId = s.holds id submissionId := by
  rw [Bool.eq_iff_iff, List.contains_iff_mem, List.mem_map, Store.holds_iff]
  refine exists_congr fun j => ?_
  rw [Table.mem_filter, admits_ofRejudging, decide_eq_true_eq, and_assoc]
  exact and_congr_right fun _ => and_comm

/-- Retires the judgings of the submissions that have a candidate, and
promotes the candidates. -/
def promoteCandidates (s : Store) (id : Int) : Store :=
  let candidates := s.judgings.filter (JudgingFilter.ofRejudging id).admits
  (s.retireAll (candidates.map Judging.submissionId)).promoteAll (candidates.map Judging.id)

/-- **Promoting candidates** settles all judgings of their submissions, once
the candidates have ended. -/
theorem judgings_promoteCandidates (id : Int)
    (hdone : ∀ j ∈ s.judgings, j.rejudgingId = some id → j.isFinalized = true) :
    (promoteCandidates s id).judgings =
      s.judgings.update (fun j => s.holds id j.submissionId) (.settled id)
        (Judging.key_settled id) := by
  have hsteps : (promoteCandidates s id).judgings =
      (s.judgings.update (fun j => ((s.judgings.filter (JudgingFilter.ofRejudging id).admits).map
        Judging.submissionId).contains j.submissionId) Judging.retired Judging.key_retired).update
        (fun j => ((s.judgings.filter (JudgingFilter.ofRejudging id).admits).map
          Judging.id).contains j.id) Judging.promoted Judging.key_promoted := rfl
  rw [hsteps]
  refine Table.update_update fun j hj => ?_
  have hid : (if s.holds id j.submissionId = true then j.retired else j).id = j.id := by
    split <;> rfl
  rw [contains_submissionIds, hid, Store.contains_ids_filter hj, admits_ofRejudging]
  by_cases hcandidate : j.rejudgingId = some id
  · have hheld : s.holds id j.submissionId = true := Store.holds_iff.mpr ⟨j, hj, rfl, hcandidate⟩
    have hfin : j.retired.isFinalized = true := hdone j hj hcandidate
    rw [if_pos hheld, if_pos (decide_eq_true hcandidate), if_pos hheld, Judging.promoted,
      Judging.settled, hfin, decide_eq_true hcandidate]
    rfl
  · have hfalse := decide_eq_false hcandidate
    rw [if_neg (by simpa using hcandidate)]
    split
    · rw [Judging.retired, Judging.settled, hfalse]
    · rfl

section Apply

variable {q : Rejudging}
  (hdone : ∀ j ∈ s.judgings, j.rejudgingId = some q.id → j.isFinalized = true)

include hdone

/-- Concluding the rejudging once the candidates are promoted applies it. -/
theorem updateRejudging_promoteCandidates (hq : q ∈ s.rejudgings) (hopen : q.applied = none)
    (now : Instant) (operator : Option Int) :
    ((promoteCandidates s q.id).setSubmissionsRejudging (.ofRejudging q.id) none).2.updateRejudging
      (q.decide true now operator) = .ok (s.applyRejudging q.id now operator) := by
  have hconclude : (promoteCandidates s q.id).conclude q.id true now operator =
      s.applyRejudging q.id now operator :=
    congrArg (fun judgings => ({ s with judgings } : Store).conclude q.id true now operator)
      (judgings_promoteCandidates q.id hdone)
  rw [← hconclude]
  exact Store.updateRejudging_decide (s := promoteCandidates s q.id) hq hopen true now operator

/-- What bridges to the promoted candidates bridges to the applied rejudging:
the submissions that are let go keep their standing. -/
theorem bridges_applyRejudging {ds : List StatisticsDelta}
    (h : s.Bridges ds (promoteCandidates s q.id)) (now : Instant) (operator : Option Int) :
    s.Bridges (mergeAll ds) (s.applyRejudging q.id now operator) := by
  intro k
  have htally : (s.applyRejudging q.id now operator).tally k = (promoteCandidates s q.id).tally k :=
    Store.tally_congr (judgings_promoteCandidates q.id hdone).symm
      (Store.standing_update (Submission.key_moved none) (fun _ => rfl) (fun _ => rfl) rfl)
  rw [htally, h k, sumAt_mergeAll]

end Apply

/-- Where no candidate is left unfinished, all have ended. -/
theorem isFinalized_of_candidate {id : Int}
    (h : (s.judgings.filter (JudgingFilter.ofRejudging id).admits).countP
      (fun j => !j.isFinalized) = 0) {j : Judging} (hj : j ∈ s.judgings)
    (hid : j.rejudgingId = some id) : j.isFinalized = true := by
  have hcandidate : j ∈ s.judgings.filter (JudgingFilter.ofRejudging id).admits := by
    rw [Table.mem_filter, admits_ofRejudging, decide_eq_true_eq]
    exact ⟨hj, hid⟩
  simpa using List.countP_eq_zero.mp h j hcandidate

/-- **Applying** an open rejudging whose candidates have ended retires the
judgings of their submissions, promotes the candidates, lets the submissions go
and decides the rejudging, and its deltas bridge the first and the last of the
stores. -/
theorem commits_apply (id : Int) (operator : Option Int) (now : Instant) :
    (apply id operator now).Commits s fun _ es s' =>
      es = [] ∧ ∃ q ∈ s.rejudgings, q.id = id ∧ q.applied = none ∧
        (∀ j ∈ s.judgings, j.rejudgingId = some q.id → j.isFinalized = true) ∧
        ∃ ds, s.Bridges (mergeAll ds) (s.applyRejudging q.id now operator) ∧
          s' = (s.applyRejudging q.id now operator).mergeStatistics (mergeAll ds) := by
  simp only [apply, commits_bind]
  refine ensures_loadOpen ?_
  rintro q hq rfl hopen
  simp only [ensures_ask, Query.run, ensures_unlessError, decide_eq_true_eq]
  intro hunfinished
  have hdone : ∀ j ∈ s.judgings, j.rejudgingId = some q.id → j.isFinalized = true :=
    fun j hj hid => isFinalized_of_candidate hunfinished hj hid
  refine Store.ensures_uncount.mono ?_
  rintro retracted _ ⟨rfl, hretracted⟩
  have hadmits : ∀ (ids : List Int), ∀ j ∈ s.judgings,
      JudgingFilter.admits { submissionIds := some ids, active := some true } j =
        (ids.contains j.submissionId && j.active) := by
    intro ids j _
    simp [JudgingFilter.admits]
  rw [Store.retire_eq (hadmits _)] at hretracted ⊢
  refine Store.ensures_count.mono ?_
  rintro counted _ ⟨rfl, hcounted⟩
  rw [Store.promote_eq] at hcounted ⊢
  -- both deltas are answered for stores in which only the activity differs
  have hbridge : s.Bridges (retracted ++ counted) (promoteCandidates s q.id) :=
    hretracted.of_setActive.trans hcounted.of_setActive
  have hstore := updateRejudging_promoteCandidates hdone hq hopen now operator
  rw [promoteCandidates] at hstore
  rw [hstore]
  exact commits_commit.mpr ⟨rfl, q, hq, rfl, hopen, hdone, retracted ++ counted,
    bridges_applyRejudging hdone hbridge now operator, rfl⟩

/-- Applying is one change. -/
theorem traces_apply (id : Int) (operator : Option Int) (now : Instant) :
    (apply id operator now).Traces now s := by
  refine (commits_apply id operator now).mono ?_
  rintro _ _ _ ⟨rfl, q, hq, rfl, hopen, hdone, ds, hbridge, rfl⟩
  exact .of_change (.apply hq hopen hdone operator hbridge)

/-! ## Cancelling -/

theorem admits_rejudging_lifecycle (id : Int) (l : Lifecycle) :
    JudgingFilter.admits { rejudgingId := some id, lifecycle := some l } =
      fun j => decide (j.rejudgingId = some id) && decide (j.lifecycle = l) := by
  funext j
  simp [JudgingFilter.admits]

/-- Deletes the queued candidates of a rejudging. -/
def dropQueued (s : Store) (id : Int) : Store :=
  (s.deleteJudgings { rejudgingId := some id, lifecycle := some .queued }).2

theorem judgings_dropQueued (id : Int) :
    (dropQueued s id).judgings =
      s.judgings.keep fun j => !(decide (j.rejudgingId = some id) && j.isQueued) := by
  rw [dropQueued, Store.deleteJudgings, admits_rejudging_lifecycle]
  rfl

/-- Judgings that are abandoned by their ids are those that were listed. -/
theorem updateJudgings_abandon (p : Judging → Bool) (now : Instant) :
    (s.updateJudgings (.ofIds ((s.judgings.filter p).map Judging.id)) (.abandon now)).2 =
      s.abandonAll p now := by
  have hjud : s.judgings.update
      (JudgingFilter.ofIds ((s.judgings.filter p).map Judging.id)).admits
      (JudgingPatch.abandon now).apply (JudgingPatch.abandon now).key_apply =
      s.judgings.update p (JudgingPatch.abandon now).apply
        (JudgingPatch.abandon now).key_apply := by
    refine Table.update_congr fun j hj => ?_
    have hadmits :
        (JudgingFilter.ofIds ((s.judgings.filter p).map Judging.id)).admits j = p j := by
      have hcontains := Store.contains_ids_filter (p := p) hj
      simpa [JudgingFilter.admits, JudgingFilter.ofIds] using hcontains
    rw [hadmits]
  exact congrArg (fun judgings => { s with judgings }) hjud

/-- If none is listed, nothing is abandoned. -/
theorem abandonAll_of_isEmpty {p : Judging → Bool}
    (hempty : ((s.judgings.filter p).map Judging.id).isEmpty = true) (now : Instant) :
    s.abandonAll p now = s := by
  have hnone : ∀ j ∈ s.judgings, ¬ p j = true := by
    intro j hj hp
    have hmem : j ∈ s.judgings.filter p := Table.mem_filter.mpr ⟨hj, hp⟩
    rw [List.isEmpty_iff, List.map_eq_nil_iff] at hempty
    rw [hempty] at hmem
    exact List.not_mem_nil hmem
  rw [Store.abandonAll, Table.update_eq_self fun j hj hp => absurd hp (hnone j hj)]

/-- **Abandoning some judgings**, which is left out if there are none, patches
them before the rest is done. -/
theorem commits_abandon {α : Type} {p : Judging → Bool} {now : Instant}
    {rest : Transaction (Ending α)} {P : α → List Event → Store → Prop}
    (h : rest.Commits (s.abandonAll p now) P) :
    (if !((s.judgings.filter p).map Judging.id).isEmpty then do
      let _ ← ask (.updateJudgings (.ofIds ((s.judgings.filter p).map Judging.id)) (.abandon now))
      rest
    else rest).Commits s P := by
  split
  · simp only [commits_bind, ensures_ask, Query.run]
    rwa [updateJudgings_abandon]
  · next hempty =>
    rw [Bool.not_eq_true', Bool.not_eq_false] at hempty
    rwa [abandonAll_of_isEmpty hempty] at h

/-- None of the candidates that are claimed is dropped with the queued ones. -/
theorem filter_claimed_dropQueued (id : Int) :
    (dropQueued s id).judgings.filter
        (fun j => decide (j.rejudgingId = some id) && decide (j.lifecycle = .claimed)) =
      s.judgings.filter fun j => decide (j.rejudgingId = some id) && j.isClaimed := by
  rw [judgings_dropQueued]
  refine (List.filter_filter ..).trans (List.filter_congr fun j _ => ?_)
  by_cases hclaimed : j.lifecycle = .claimed
  · simp [Judging.isQueued, Judging.isClaimed, hclaimed]
  · simp [Judging.isClaimed, hclaimed]

/-- **Deciding** the rejudging is the last step of cancelling it. -/
theorem updateRejudging_cancel {q : Rejudging} (hq : q ∈ s.rejudgings) (hopen : q.applied = none)
    (now : Instant) (operator : Option Int) :
    (((dropQueued s q.id).abandonAll (fun j => decide (j.rejudgingId = some q.id) &&
      decide (j.lifecycle = .claimed)) now).setSubmissionsRejudging (.ofRejudging q.id)
      none).2.updateRejudging (q.decide false now operator) =
      .ok (s.cancelRejudging q.id now operator) := by
  generalize hclaimed : (fun j : Judging =>
    decide (j.rejudgingId = some q.id) && decide (j.lifecycle = .claimed)) = claimed
  have hconclude : ((dropQueued s q.id).abandonAll claimed now).conclude q.id false now operator =
      s.cancelRejudging q.id now operator := by
    rw [← hclaimed, dropQueued, Store.deleteJudgings, admits_rejudging_lifecycle]
    rfl
  rw [← hconclude]
  exact Store.updateRejudging_decide (s := (dropQueued s q.id).abandonAll claimed now) hq hopen
    false now operator

/-- **Cancelling** drops the queued candidates of an open rejudging, and tells
of the claimed ones. -/
theorem commits_cancel (id : Int) (operator : Option Int) (now : Instant) :
    (cancel id operator now).Commits s fun _ es s' =>
      ∃ q ∈ s.rejudgings, q.id = id ∧ q.applied = none ∧
        es = (s.judgings.filter fun j => j.rejudgingId = some id && j.isClaimed).map
          (fun j => .judgingFinished j.id j.submissionId) ∧
        s' = s.cancelRejudging id now operator := by
  simp only [cancel, commits_bind]
  refine ensures_loadOpen ?_
  rintro q hq rfl hopen
  simp only [ensures_ask, Query.run]
  have hdrop : (s.deleteJudgings { rejudgingId := some q.id, lifecycle := some .queued }).2 =
      dropQueued s q.id := rfl
  rw [hdrop, admits_rejudging_lifecycle]
  refine commits_abandon ?_
  simp only [commits_bind, ensures_ask, Query.run]
  rw [updateRejudging_cancel hq hopen, filter_claimed_dropQueued]
  exact commits_commit.mpr ⟨q, hq, rfl, hopen, rfl, rfl⟩

/-- Cancelling is one change. -/
theorem traces_cancel (id : Int) (operator : Option Int) (now : Instant) :
    (cancel id operator now).Traces now s := by
  refine (commits_cancel id operator now).mono ?_
  rintro _ _ _ ⟨q, hq, rfl, hopen, rfl, rfl⟩
  exact .of_change (.cancel hq hopen operator)

end Rejudge

end JudgeQueue
