import JudgeQueue.Proofs.Course.Decisions
import JudgeQueue.Proofs.Reachable.Verdicts
import JudgeQueue.Proofs.Trace.Effects
/-!
# Reachable worlds — the course of judgings

A judging goes one way, from the queue to a judgehost and from there to its
end, and no request makes it do more than one of these steps. What has ended
is history: nothing but its flags changes. Judgings disappear while they wait
in a rejudging that is cancelled, runs disappear with their testcase, and the
id of a row that was there is never given to another one.
-/

namespace JudgeQueue

open Transaction

variable {α : Type}

namespace Operation

/-- Whether a request asks for a judging to grade. -/
def IsClaim : Operation α → Prop
  | claimJudging _ => True
  | _ => False

/-- The rejudging that a request cancels. -/
def cancels? : Operation α → Option Int
  | cancelRejudging id _ => some id
  | _ => none

/-- The testcase that a request removes. -/
def removes? : Operation α → Option Int
  | deleteTestcase id => some id
  | _ => none

/-- What a request may make of a judging. -/
structure Moves (op : Operation α) (j j' : Judging) : Prop where
  submissionId : j'.submissionId = j.submissionId
  fullTest : j'.fullTest = j.fullTest
  lifecycle : j'.lifecycle = j.lifecycle ∨
    op.IsClaim ∧ j.lifecycle = .queued ∧ j'.lifecycle = .claimed ∨
    j.lifecycle = .claimed ∧ j'.lifecycle = .finalized
  held : j'.server = j.server ∧ j'.startTime = j.startTime ∨
    j.lifecycle = .queued ∧ j'.lifecycle = .claimed
  ended : j.lifecycle = .finalized → j' = { j with active := j'.active, counted := j'.counted }

variable {op : Operation α} {ctx : Context} {w : World}

/-- Only a claim hands judgings out. -/
theorem isClaim_of_effect (h : .handsOut ∈ op.effects) : op.IsClaim := by
  cases op with
  | claimJudging hostname => trivial
  | _ => simp [effects] at h

/-- Events tell of no effect that the request does not have. -/
theorem mem_effects_of_event {event : Event} (h : event ∈ (op.perform ctx w).events) {e : Effect}
    (he : event.effect? = some e) : e ∈ op.effects := by
  obtain ⟨β, body, hbody, -, hevents⟩ := op.exists_body ctx w
  have hmem := hevents h
  rcases transact_within hbody ctx w with ⟨a, -, hminds⟩ | ⟨-, hnone, -⟩
  · exact hminds event hmem e he
  · rw [hnone] at hmem
    cases hmem

/-- A claim tells of no end. -/
theorem not_finished_of_isClaim (h : op.IsClaim) (judgingId submissionId : Int) :
    .judgingFinished judgingId submissionId ∉ (op.perform ctx w).events := by
  intro hevent
  cases op with
  | claimJudging hostname =>
    have hwithin := Dispatch.within_claimJudging (E := [.handsOut]) List.mem_cons_self ctx.scripts
      (w.store.enabledTargets + 1) hostname ctx.now
    rcases transact_within hwithin ctx w with ⟨payload, -, raised, hraised, hes⟩ | ⟨-, hnone, -⟩
    · rw [perform, hes] at hevent
      rcases List.mem_append.mp hevent with hmem | hmem
      · obtain ⟨_, _, _, heq⟩ := hraised _ hmem
        cases heq
      · obtain ⟨p, -, heq⟩ := Option.map_eq_some_iff.mp (Option.mem_toList.mp hmem)
        cases heq
    · rw [perform, hnone] at hevent
      cases hevent
  | _ => exact h

end Operation

namespace Store

/-- A candidate of a rejudging that waits: it has no runs, and nothing of it
is counted. -/
structure Waits (s : Store) (rejudgingId : Int) (j : Judging) : Prop where
  queued : j.lifecycle = .queued
  uncounted : j.counted = false
  runs : ∀ n ∈ s.runs, n.judgingId ≠ j.id
  rejudgingId : j.rejudgingId = some rejudgingId

/-- What a request makes of the judgings and the runs of a store. -/
structure Evolves (s : Store) (op : Operation α) (answer : Except Error α) (s' : Store) :
    Prop where
  kept : ∀ j ∈ s.judgings, ∀ j' ∈ s'.judgings, j'.id = j.id → op.Moves j j'
  missing : ∀ j ∈ s.judgings, (∀ j' ∈ s'.judgings, j'.id ≠ j.id) →
    ∃ id a, op.cancels? = some id ∧ answer = .ok a ∧ s.Waits id j
  runs : ∀ n ∈ s.runs, n ∈ s'.runs ∨ op.removes? = some n.testcaseId

/-- No id that was in use in `s₀` or since is given to a new row on the way from `s`
to `s'`: a row under such an id is the row that had it, gone on. Rejudgings and
internal errors all go on. -/
structure KeepsIds (s₀ s s' : Store) : Prop where
  judgings :
    Table.DrawsFresh Judging.Follows s₀.judgings s.judgings s.lastJudging s'.judgings
  runs : Table.DrawsFresh Eq s₀.runs s.runs s.lastRun s'.runs
  rejudgings :
    Table.DrawsFresh Rejudging.Follows s₀.rejudgings s.rejudgings s.lastRejudging s'.rejudgings
  internalErrors : Table.DrawsFresh InternalError.Follows s₀.internalErrors s.internalErrors
    s.lastInternalError s'.internalErrors
  settles : s.Settles s'

variable {s₀ s s' : Store} {es fs : List Event}

theorem Unfolds.keepsIds (h : s₀.OnCourse) (hrun : ∀ n ∈ s₀.runs, n.id ≤ s₀.lastRun)
    (hs : s₀.Unfolds es s) (hs' : s.Unfolds fs s') (hsettles : s.Settles s') :
    s₀.KeepsIds s s' where
  judgings := hs.judgings.grows.drawsFresh h.sound.numbered.judging_le hs'.judgings.grows
  runs := hs.runs.drawsFresh hrun hs'.runs
  rejudgings := hs.rejudgings.drawsFresh h.sound.numbered.rejudging_le hs'.rejudgings
  internalErrors := hs.internalErrors.drawsFresh h.error_le hs'.internalErrors
  settles := hsettles

end Store

namespace World

variable {w₀ w w' : World}

/-! ## Along requests -/

/-- A seeded store is on its course. -/
theorem onCourse_seed {rows : Seed} : (({} : Store).seed rows).OnCourse :=
  ⟨Store.sound_seed, fun _ hj => absurd hj Table.not_mem_empty,
    fun _ he => absurd he Table.not_mem_empty⟩

/-- **Requests unfold a store** that is on its course. -/
theorem Steps.unfolds (h : w.Steps w') (hs : w.store.OnCourse) :
    (∃ es, w.store.Unfolds es w'.store) ∧ w'.store.OnCourse := by
  induction h with
  | refl => exact ⟨⟨[], .refl hs⟩, hs⟩
  | perform _ op ctx ih =>
    obtain ⟨⟨es, hunfolds⟩, hcourse⟩ := ih
    obtain ⟨hstep, hlast⟩ := hcourse.unfolds_trace (perform_trace op ctx hcourse.sound)
    exact ⟨⟨_, hunfolds.trans hstep⟩, hlast⟩

/-- Stores that arise from supplied rows are on their course. -/
theorem Arises.onCourse (h : w.Arises) : w.store.OnCourse := by
  obtain ⟨rows, blobs, hw⟩ := h
  exact (hw.unfolds onCourse_seed).2

/-! ## Single requests -/

variable {op : Operation α} {ctx : Context}

/-- A request that removes nothing keeps the rows. -/
theorem keepsRows_perform (h : .removes ∉ op.effects) :
    w.store.KeepsRows (op.perform ctx w).world.store := by
  obtain ⟨β, body, hbody, hworld, -⟩ := op.exists_body ctx w
  rw [hworld]
  exact transact_keepsRows hbody h ctx w

/-- Cancelling leaves the store as it was, or answers and drops the
candidates. -/
theorem perform_cancelRejudging (id : Int) (operator : Option Int) (ctx : Context) (w : World) :
    (∃ a, ((Operation.cancelRejudging id operator).perform ctx w).answer = .ok a ∧
        ((Operation.cancelRejudging id operator).perform ctx w).world.store =
          w.store.cancelRejudging id ctx.now operator) ∨
      ((Operation.cancelRejudging id operator).perform ctx w).world.store = w.store := by
  rcases transact_commits (Rejudge.commits_cancel id operator ctx.now) ctx with
    ⟨a, hanswer, -, -, -, -, -, hstore⟩ | ⟨-, hstore⟩
  · exact .inl ⟨a, hanswer, hstore⟩
  · exact .inr hstore

/-- Removing a testcase leaves the store as it was, or drops its runs. -/
theorem perform_deleteTestcase (id : Int) (ctx : Context) (w : World) :
    ((Operation.deleteTestcase id).perform ctx w).world.store = (w.store.deleteTestcase id).2 ∨
      ((Operation.deleteTestcase id).perform ctx w).world.store = w.store := by
  rcases transact_commits (commits_deleteTestcase id) ctx with ⟨-, -, hstore⟩ | ⟨-, hstore⟩
  · exact .inl hstore
  · exact .inr hstore

/-- **A judging that is missing** after a request waited in the rejudging that
the request has cancelled. -/
theorem waits_of_missing (hs : w.store.OnCourse) (hfiled : w.store.Filed) {j : Judging}
    (hj : j ∈ w.store.judgings)
    (hmissing : ∀ j' ∈ (op.perform ctx w).world.store.judgings, j'.id ≠ j.id) :
    ∃ id a, op.cancels? = some id ∧ (op.perform ctx w).answer = .ok a ∧ w.store.Waits id j := by
  by_cases hremoves : .removes ∈ op.effects
  · cases op with
    | cancelRejudging id operator =>
      rcases perform_cancelRejudging id operator ctx w with ⟨a, hanswer, hstore⟩ | hstore
      · -- of the candidates only those go that wait
        have hwaits : j.rejudgingId = some id ∧ j.lifecycle = .queued := by
          by_contra hnot
          rw [not_and] at hnot
          by_cases hclaimed : j.rejudgingId = some id ∧ j.lifecycle = .claimed
          · refine hmissing ((JudgingPatch.abandon ctx.now).apply j) ?_ rfl
            rw [hstore]
            exact Store.mem_judgings_cancelRejudging.mpr
              (.inl ⟨j, hj, hclaimed.1, hclaimed.2, rfl⟩)
          · refine hmissing j ?_ rfl
            rw [hstore]
            refine Store.mem_judgings_cancelRejudging.mpr (.inr ⟨hj, fun hid => ?_⟩)
            cases hl : j.lifecycle with
            | queued => exact absurd hl (hnot hid)
            | claimed => exact absurd ⟨hid, hl⟩ hclaimed
            | finalized => rfl
        exact ⟨id, a, rfl, hanswer, hwaits.2,
          (hs.shaped j hj).counted_of_queued hwaits.2,
          fun n hn hid => hfiled.lifecycle_ne_queued hj hn hid hwaits.2, hwaits.1⟩
      · rw [hstore] at hmissing
        exact absurd rfl (hmissing j hj)
    | deleteTestcase id =>
      have hjudgings : ((Operation.deleteTestcase id).perform ctx w).world.store.judgings =
          w.store.judgings := by
        rcases perform_deleteTestcase id ctx w with hstore | hstore
        · rw [hstore]
          rfl
        · rw [hstore]
      rw [hjudgings] at hmissing
      exact absurd rfl (hmissing j hj)
    | _ => simp [Operation.effects] at hremoves
  · obtain ⟨j', hj', hid⟩ := (keepsRows_perform hremoves).judgings j hj
    exact absurd hid (hmissing j' hj')

/-- **A run stays as it is** until its testcase is removed. -/
theorem run_perform (hs : w.store.OnCourse) (hfiled : w.store.Filed) {n : Run}
    (hn : n ∈ w.store.runs) :
    n ∈ (op.perform ctx w).world.store.runs ∨ op.removes? = some n.testcaseId := by
  by_cases hremoves : .removes ∈ op.effects
  · cases op with
    | cancelRejudging id operator =>
      left
      rcases perform_cancelRejudging id operator ctx w with ⟨a, -, hstore⟩ | hstore
      · -- the runs of candidates that wait would go, but these have none
        have hkept : n ∈ w.store.runs.keep fun r => !((w.store.judgings.filter fun j =>
            j.rejudgingId = some id && j.isQueued).map Judging.id).contains r.judgingId := by
          refine Table.mem_keep.mpr ⟨hn, ?_⟩
          rw [Bool.not_eq_true', List.contains_eq_mem, decide_eq_false_iff_not]
          intro hmem
          obtain ⟨j, hj, hid⟩ := List.mem_map.mp hmem
          obtain ⟨hj, hdoomed⟩ := Table.mem_filter.mp hj
          rw [Bool.and_eq_true] at hdoomed
          exact hfiled.lifecycle_ne_queued hj hn hid.symm (Judging.isQueued_iff.mp hdoomed.2)
        rw [hstore]
        exact hkept
      · rwa [hstore]
    | deleteTestcase id =>
      rcases perform_deleteTestcase id ctx w with hstore | hstore
      · rw [hstore, Store.mem_runs_deleteTestcase]
        by_cases hid : n.testcaseId = id
        · right
          rw [hid]
          rfl
        · exact .inl ⟨hn, hid⟩
      · left
        rwa [hstore]
    | _ => simp [Operation.effects] at hremoves
  · obtain ⟨n', hn', hid⟩ := (keepsRows_perform hremoves).runs n hn
    obtain ⟨hunfolds, -⟩ := hs.unfolds_trace (perform_trace op ctx hs.sound)
    -- a run under an id that is in use is the run that was there
    have hle : key n' ≤ w.store.lastRun := by
      have hlast := hfiled.run_le n hn
      have hkey : key n' = n.id := hid
      omega
    obtain ⟨m, hm, rfl⟩ := hunfolds.runs.old n' hn' hle
    have hmn : m = n := Table.eq_of_key_eq hm hn hid
    subst hmn
    exact .inl hn'

/-- **A judging that is still there** has moved one step at most. -/
theorem moves_perform (hs : w.store.OnCourse) {j j' : Judging} (hj : j ∈ w.store.judgings)
    (hj' : j' ∈ (op.perform ctx w).world.store.judgings) (hid : j'.id = j.id) : op.Moves j j' := by
  obtain ⟨hunfolds, hcourse⟩ := hs.unfolds_trace (perform_trace op ctx hs.sound)
  obtain ⟨hfollows, hstory⟩ :=
    hunfolds.judgings.row hj (hs.sound.numbered.judging_le j hj) hj' hid
  have htold : ∀ event ∈ j'.story, event ∈ j.story ∨ event ∈ (op.perform ctx w).events := by
    intro event hevent
    rw [hstory] at hevent
    exact (List.mem_append.mp hevent).imp_right fun hmem => (List.mem_filter.mp hmem).1
  -- a begin that is new is told of, and so is an end
  have hbegun : j.lifecycle = .queued → j'.lifecycle ≠ .queued → op.IsClaim := by
    intro hl hl'
    have hmem : j'.begun ∈ j'.story := by
      rw [Judging.story]
      cases hlife : j'.lifecycle with
      | queued => exact absurd hlife hl'
      | claimed | finalized => exact List.mem_cons_self
    rcases htold _ hmem with hold | hnew
    · rw [Judging.story_of_queued hl] at hold
      cases hold
    · exact Operation.isClaim_of_effect (Operation.mem_effects_of_event hnew rfl)
  have hfinished : j.lifecycle = .queued → j'.lifecycle ≠ .finalized := by
    intro hl hl'
    have hmem : j'.finished ∈ j'.story := by
      rw [Judging.story_of_finalized hl']
      exact List.mem_cons_of_mem _ List.mem_cons_self
    rcases htold _ hmem with hold | hnew
    · rw [Judging.story_of_queued hl] at hold
      cases hold
    · have hne : j'.lifecycle ≠ .queued := by
        rw [hl']
        decide
      exact Operation.not_finished_of_isClaim (hbegun hl hne) _ _ hnew
  refine ⟨hfollows.submissionId, hfollows.fullTest, ?lifecycle, ?held, hfollows.ended⟩
  case lifecycle =>
    cases hl : j.lifecycle with
    | queued =>
      cases hl' : j'.lifecycle with
      | queued => exact .inl rfl
      | claimed =>
        have hne : j'.lifecycle ≠ .queued := by
          rw [hl']
          decide
        exact .inr (.inl ⟨hbegun hl hne, rfl, rfl⟩)
      | finalized => exact absurd hl' (hfinished hl)
    | claimed =>
      have hne : j.lifecycle ≠ .queued := by
        rw [hl]
        decide
      cases hl' : j'.lifecycle with
      | queued => exact absurd hl' (hfollows.begun hne).1
      | claimed => exact .inl rfl
      | finalized => exact .inr (.inr ⟨rfl, rfl⟩)
    | finalized =>
      rw [hfollows.ended hl]
      exact .inl hl
  case held =>
    by_cases hl : j.lifecycle = .queued
    · cases hl' : j'.lifecycle with
      | queued =>
        -- neither has a judgehost
        left
        rw [(hs.shaped j hj).waiting hl, (hcourse.shaped j' hj').waiting hl']
        exact ⟨rfl, rfl⟩
      | claimed => exact .inr ⟨hl, rfl⟩
      | finalized => exact absurd hl' (hfinished hl)
    · exact .inl (hfollows.begun hl).2

/-! ## All requests -/

/-- **Judgings go one way.** Whatever a request does in a world that arises
from supplied rows, a judging that is there before it either waited in a
rejudging that the request has cancelled, and is gone, or is still there, and
has moved one step at most; a run is still there as it was, unless the request
removed its testcase; and no id that was in use at any time before is given to
a new row: a row under such an id is the one that had it, and new rows, of
judgings, runs, rejudgings and internal errors alike, have ids above. -/
theorem evolves_perform (h : w₀.Arises) (hs : w₀.Steps w) (op : Operation α) (ctx : Context) :
    w.store.Evolves op (op.perform ctx w).answer (op.perform ctx w).world.store ∧
      w₀.store.KeepsIds w.store (op.perform ctx w).world.store := by
  have hcourse := (h.steps hs).onCourse
  have hfiled := (h.steps hs).graded.filed
  obtain ⟨hunfolds, -⟩ := hcourse.unfolds_trace (perform_trace op ctx hcourse.sound)
  obtain ⟨⟨es, hbefore⟩, -⟩ := hs.unfolds h.onCourse
  have hsettles := hcourse.settles hunfolds
    (Store.retains_trace (perform_trace op ctx hcourse.sound))
  refine ⟨⟨?kept, ?missing, ?runs⟩, ?ids⟩
  case kept => exact fun j hj j' hj' hid => moves_perform hcourse hj hj' hid
  case missing => exact fun j hj hmissing => waits_of_missing hcourse hfiled hj hmissing
  case runs => exact fun n hn => run_perform hcourse hfiled hn
  case ids => exact hbefore.keepsIds h.onCourse h.graded.filed.run_le hunfolds hsettles

/-- In the small contest, cancelling the open rejudging drops the candidate
that waits, and nothing else goes. If another rejudging is opened instead, it
has an id above those of the two that are there, and both stay. -/
theorem evolves_contestRejudging :
    contestCounted.Arises ∧ contestCounted.Steps contestRejudging ∧
      (∃ j ∈ contestRejudging.store.judgings, contestRejudging.store.Waits 1 j ∧
        ∀ j' ∈ (contestRejudging.after (.cancelRejudging 1 none)).store.judgings, j'.id ≠ j.id) ∧
      contestRejudging.store.Evolves (.cancelRejudging 1 none)
        ((Operation.cancelRejudging 1 none).perform contestContext contestRejudging).answer
        (contestRejudging.after (.cancelRejudging 1 none)).store ∧
      contestCounted.store.KeepsIds contestRejudging.store
        (contestRejudging.after (.cancelRejudging 1 none)).store ∧
      (∀ q ∈ (contestRejudging.after (.createRejudging ⟨1, "", none⟩)).store.rejudgings,
        (∃ p ∈ contestRejudging.store.rejudgings, p.Follows q) ∨ 2 < q.id) ∧
      ∀ p ∈ contestRejudging.store.rejudgings,
        ∃ q ∈ (contestRejudging.after (.createRejudging ⟨1, "", none⟩)).store.rejudgings,
          p.Follows q := by
  have harises : contestCounted.Arises := reachable_contestCounted.arises
  have hsteps : contestCounted.Steps contestRejudging :=
    ((((Steps.refl.perform _ _).perform _ _).perform _ _).perform _ _).perform _ _
  obtain ⟨hevolves, hids⟩ :=
    evolves_perform harises hsteps (.cancelRejudging 1 none) contestContext
  obtain ⟨-, hopened⟩ :=
    evolves_perform harises hsteps (.createRejudging ⟨1, "", none⟩) contestContext
  have hlast : contestRejudging.store.lastRejudging = 2 := by decide +kernel
  have hgone : ∃ j ∈ contestRejudging.store.judgings.rows,
      ∀ j' ∈ (contestRejudging.after (.cancelRejudging 1 none)).store.judgings.rows,
        j'.id ≠ j.id := by
    decide +kernel
  obtain ⟨j, hj, hmissing⟩ := hgone
  obtain ⟨id, a, hcancels, -, hwaits⟩ := hevolves.missing j hj hmissing
  cases hcancels
  exact ⟨harises, hsteps, ⟨j, hj, hwaits, hmissing⟩, hevolves, hids,
    fun q hq => hlast ▸ hopened.rejudgings.row q hq, hopened.settles.rejudgings⟩

end World

end JudgeQueue
