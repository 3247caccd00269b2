import JudgeQueue.Proofs.Reachable.Batch
import JudgeQueue.Proofs.Reachable.Verdicts
import JudgeQueue.Proofs.Recovery.Cancel
/-!
# Reachable worlds — proposals that are withdrawn

A batch of a rejudging finds its submissions by three filters and writes by two
lists of ids; cancelling finds what it takes back by the rejudging and by how far
the candidates have come. The two address the same rows: cancelled at once, a
batch leaves nothing but the decision and the ids that it has used up.
-/

namespace JudgeQueue

open Transaction

/-! ## Judgings that are queued one after another -/

/-- The judgings that some new ones become which get the ids after the last. -/
def NewJudging.queuedAfter (last : Int) (news : List NewJudging) : List Judging :=
  news.mapIdx fun i new => new.queued (last + 1 + i)

theorem NewJudging.queuedAfter_cons (last : Int) (new : NewJudging) (rest : List NewJudging) :
    queuedAfter last (new :: rest) = new.queued (last + 1) :: queuedAfter (last + 1) rest := by
  have hnext : ∀ i : Nat, last + 1 + ((i + 1 : Nat) : Int) = last + 1 + 1 + i := by
    intro i
    omega
  rw [queuedAfter, List.mapIdx_cons, Int.natCast_zero, Int.add_zero]
  simp only [hnext]
  rfl

theorem NewJudging.length_queuedAfter (last : Int) (news : List NewJudging) :
    (queuedAfter last news).length = news.length :=
  List.length_mapIdx

theorem NewJudging.map_id_queuedAfter (last : Int) (news : List NewJudging) :
    (queuedAfter last news).map Judging.id =
      (List.range news.length).map fun i : Nat => last + 1 + (i : Int) := by
  refine List.ext_getElem (by simp [queuedAfter]) fun i _ _ => ?_
  simp only [queuedAfter, List.getElem_map, List.getElem_mapIdx, List.getElem_range]
  rfl

theorem NewJudging.map_submissionId_queuedAfter (last : Int) (news : List NewJudging) :
    (queuedAfter last news).map Judging.submissionId = news.map NewJudging.submissionId := by
  refine List.ext_getElem (by simp [queuedAfter]) fun i _ _ => ?_
  simp only [queuedAfter, List.getElem_map, List.getElem_mapIdx]
  rfl

theorem NewJudging.exists_of_mem_queuedAfter {last : Int} {news : List NewJudging} {j : Judging}
    (h : j ∈ queuedAfter last news) : last < j.id ∧ ∃ new ∈ news, j = new.queued j.id := by
  obtain ⟨i, hi, rfl⟩ := List.mem_mapIdx.mp h
  have hid : (news[i].queued (last + 1 + i)).id = last + 1 + i := rfl
  refine ⟨by rw [hid]; omega, news[i], List.getElem_mem hi, rfl⟩

namespace Store

variable {s : Store}

/-- A judging is queued after those that are there. -/
theorem rows_queue (hle : ∀ j ∈ s.judgings, j.id ≤ s.lastJudging) (new : NewJudging) :
    (s.queue new).judgings.rows = s.judgings.rows ++ [new.queued (s.lastJudging + 1)] :=
  Table.rows_insert_of_le hle rfl

/-- The last id stays the last. -/
theorem judging_le_queue (hle : ∀ j ∈ s.judgings, j.id ≤ s.lastJudging) (new : NewJudging) :
    ∀ j ∈ (s.queue new).judgings, j.id ≤ (s.queue new).lastJudging := by
  intro j hj
  change j.id ≤ s.lastJudging + 1
  rw [← Table.mem_rows, rows_queue hle, List.mem_append, List.mem_singleton] at hj
  rcases hj with hj | rfl
  · have hid := hle j hj
    omega
  · exact Int.le_refl _

/-- **Judgings are queued after those that are there**, under the next ids. -/
theorem rows_foldl_queue (hle : ∀ j ∈ s.judgings, j.id ≤ s.lastJudging) (news : List NewJudging) :
    (news.foldl queue s).judgings.rows =
      s.judgings.rows ++ NewJudging.queuedAfter s.lastJudging news := by
  induction news generalizing s with
  | nil => exact (List.append_nil _).symm
  | cons new rest ih =>
    rw [List.foldl_cons, ih (judging_le_queue hle new), rows_queue hle, List.append_assoc,
      NewJudging.queuedAfter_cons]
    rfl

/-- Nothing else changes, and the sequence moves on by as many. -/
theorem exists_foldl_queue (s : Store) (news : List NewJudging) :
    ∃ judgings, news.foldl queue s =
      { s with judgings := judgings, lastJudging := s.lastJudging + news.length } := by
  induction news generalizing s with
  | nil => exact ⟨s.judgings, by simp⟩
  | cons new rest ih =>
    obtain ⟨judgings, h⟩ := ih (s.queue new)
    refine ⟨judgings, ?_⟩
    rw [List.foldl_cons, h, List.length_cons, Int.natCast_succ, Int.add_comm (rest.length : Int) 1,
      ← Int.add_assoc]
    rfl

end Store

/-! ## What a batch proposes -/

/-- A batch proposes candidates for a rejudging: one for each submission that is
selected, which stands beside the active judging of this and waits in the queue.
Just these submissions are marked, and nothing else changes. -/
structure Store.Proposes (s s' : Store) (q : Rejudging) (selection : Selection) (fullTest : Bool)
    (js : List Judging) : Prop where
  submissionIds : js.map Judging.submissionId = s.selected selection
  ascending : (s.selected selection).Pairwise (· < ·)
  ids : js.map Judging.id = (List.range js.length).map fun i : Nat => s.lastJudging + 1 + (i : Int)
  /-- A candidate is inactive, not counted and in no judgehost's hands. -/
  candidate : ∀ j ∈ js, ∃ a, s.activeOf j.submissionId = some a ∧
    j = (⟨j.submissionId, false, fullTest || a.fullTest, some q.id, some a.id⟩ :
      NewJudging).queued j.id
  judgings : s'.judgings.rows = s.judgings.rows ++ js
  submissions : s'.submissions =
    s.submissions.update (fun r => (s.selected selection).contains r.id) (.moved (some q.id))
      (Submission.key_moved (some q.id))
  frame : s' = { s with
    judgings := s'.judgings
    lastJudging := s.lastJudging + js.length
    submissions := s'.submissions }

namespace Store

variable {s : Store}

/-- The judgings that a batch of a rejudging queues. -/
def nominees (s : Store) (rejudgingId : Int) (selection : Selection) (fullTest : Bool) :
    List NewJudging :=
  (s.matched selection).map fun m => Rejudge.candidate rejudgingId fullTest m.2

/-- The store once a batch of a rejudging has marked what is selected and has
queued the candidates. -/
def proposed (s : Store) (rejudgingId : Int) (selection : Selection) (fullTest : Bool) : Store :=
  (s.nominees rejudgingId selection fullTest).foldl queue
    (s.mark rejudgingId (s.selected selection))

/-- What is selected comes in the order of the ids. -/
theorem selected_ascending (s : Store) (selection : Selection) :
    (s.selected selection).Pairwise (· < ·) := by
  rw [selected, List.pairwise_map]
  exact (s.submissions.ascending.filter _).imp Std.compare_eq_lt.mp

/-- What is selected is in no rejudging. -/
theorem rejudgingId_of_selected {selection : Selection} {r : Submission} (hr : r ∈ s.submissions)
    (h : r.id ∈ s.selected selection) : r.rejudgingId = none := by
  obtain ⟨p, hp, hid⟩ := List.mem_map.mp h
  obtain ⟨hp, hselected⟩ := Table.mem_filter.mp hp
  simp only [Bool.and_eq_true, decide_eq_true_eq] at hselected
  rw [← submission_eq hp hr hid]
  exact hselected.1.2

/-- There is a candidate for each of those that are selected. -/
theorem Sound.map_submissionId_nominees (hs : s.Sound) (rejudgingId : Int) (selection : Selection)
    (fullTest : Bool) :
    (s.nominees rejudgingId selection fullTest).map NewJudging.submissionId =
      s.selected selection := by
  rw [nominees, List.map_map, ← hs.map_matched]
  refine List.map_congr_left fun m hm => ?_
  exact (isMatch_of_mem_matched hm).submissionId

/-- It stands beside the active judging of its submission. -/
theorem Sound.exists_of_mem_nominees (hs : s.Sound) {rejudgingId : Int} {selection : Selection}
    {fullTest : Bool} {new : NewJudging} (h : new ∈ s.nominees rejudgingId selection fullTest) :
    ∃ a, s.activeOf new.submissionId = some a ∧
      new = ⟨new.submissionId, false, fullTest || a.fullTest, some rejudgingId, some a.id⟩ := by
  obtain ⟨m, hm, rfl⟩ := List.mem_map.mp h
  have hmatch := isMatch_of_mem_matched hm
  refine ⟨m.2, ?_, rfl⟩
  rw [← hmatch.activeOf hs, ← hmatch.submissionId]
  rfl

/-- **A batch proposes** one candidate for each submission that is selected. -/
theorem Sound.proposes (hs : s.Sound) (q : Rejudging) (selection : Selection) (fullTest : Bool) :
    s.Proposes (s.proposed q.id selection fullTest) q selection fullTest
      (NewJudging.queuedAfter s.lastJudging (s.nominees q.id selection fullTest)) := by
  obtain ⟨judgings, heq⟩ := exists_foldl_queue (s.mark q.id (s.selected selection))
    (s.nominees q.id selection fullTest)
  refine ⟨?submissionIds, s.selected_ascending selection, ?ids, fun j hj => ?candidate, ?judgings,
    ?submissions, ?frame⟩
  case submissionIds =>
    rw [NewJudging.map_submissionId_queuedAfter, hs.map_submissionId_nominees]
  case ids => rw [NewJudging.map_id_queuedAfter, NewJudging.length_queuedAfter]
  case candidate =>
    obtain ⟨-, new, hnew, hj⟩ := NewJudging.exists_of_mem_queuedAfter hj
    obtain ⟨a, hactive, hcandidate⟩ := hs.exists_of_mem_nominees hnew
    have hsub : j.submissionId = new.submissionId := congrArg Judging.submissionId hj
    refine ⟨a, hsub ▸ hactive, ?_⟩
    rw [hsub, ← hcandidate]
    exact hj
  case judgings =>
    exact rows_foldl_queue (s := s.mark q.id (s.selected selection)) hs.numbered.judging_le _
  case submissions =>
    rw [proposed, heq]
    rfl
  case frame =>
    rw [NewJudging.length_queuedAfter, proposed, heq]
    rfl

end Store

namespace Rejudge

variable {w : World}

/-- **Queueing judgings** of submissions that are there answers them with the next
ids. -/
theorem run_insertAll {news : List NewJudging}
    (hknown : ∀ new ∈ news, w.store.submissions.contains new.submissionId = true) :
    (insertAll news).run w = (.ok (NewJudging.queuedAfter w.store.lastJudging news),
      { w with store := news.foldl Store.queue w.store }) := by
  induction news generalizing w with
  | nil => rfl
  | cons new rest ih =>
    obtain ⟨hfound, hknown⟩ := List.forall_mem_cons.mp hknown
    have hinsert : (Query.insertJudging new).run w.store =
        .ok (new.queued (w.store.lastJudging + 1), w.store.queue new) := by
      rw [Query.run, Store.insertJudging_eq, if_pos hfound]
    have hrest := ih (w := { w with store := w.store.queue new }) hknown
    rw [insertAll, run_bind (run_ask hinsert), run_bind hrest, NewJudging.queuedAfter_cons]
    rfl

/-- A rejudging that is open and of the contest takes candidates. -/
theorem run_checkRejudging {q : Rejudging} (hq : q ∈ w.store.rejudgings) (hopen : q.applied = none)
    {contestId : Int} (hcontest : contestId = q.contestId) :
    (checkRejudging contestId (some q.id)).run w = (.ok (), w) := by
  rw [checkRejudging, run_bind (run_loadOpen hq hopen), unlessError,
    if_pos (decide_eq_true hcontest.symm)]
  rfl

/-- **A batch of an open rejudging** marks what is selected and queues a
candidate for each. -/
theorem run_batch_of_rejudging (hs : w.store.Sound) {q : Rejudging} (hq : q ∈ w.store.rejudgings)
    (hopen : q.applied = none) {selection : Selection}
    (hcontest : selection.contestId = q.contestId) (fullTest : Bool) :
    (batch selection (some q.id) fullTest).run w =
      (.ok (.commit (NewJudging.queuedAfter w.store.lastJudging
        (w.store.nominees q.id selection fullTest)) []),
        { w with store := w.store.proposed q.id selection fullTest }) := by
  have hmark : (Query.setSubmissionsRejudging (.ofIds ((w.store.matched selection).map
      fun m => m.1.id)) (some q.id)).run w.store =
      .ok ((w.store.setSubmissionsRejudging (.ofIds ((w.store.matched selection).map
        fun m => m.1.id)) (some q.id)).1, w.store.mark q.id (w.store.selected selection)) := by
    rw [Query.run, ← hs.map_matched, ← Store.setSubmissionsRejudging_ofIds]
  have hknown : ∀ new ∈ w.store.nominees q.id selection fullTest,
      (w.store.mark q.id (w.store.selected selection)).submissions.contains
        new.submissionId = true := by
    intro new hnew
    obtain ⟨m, hm, rfl⟩ := List.mem_map.mp hnew
    have hmatch := Store.isMatch_of_mem_matched hm
    rw [Store.mark, Table.contains_update]
    exact Table.contains_iff.mpr ⟨m.1, hmatch.submission, hmatch.submissionId.symm⟩
  have hinsert := run_insertAll
    (w := { w with store := w.store.mark q.id (w.store.selected selection) }) hknown
  rw [batch, run_bind (run_checkRejudging hq hopen hcontest), run_bind (run_ask rfl),
    run_bind (run_ask rfl)]
  simp only
  refine (run_bind (run_ask hmark)).trans ?_
  refine (run_bind hinsert).trans ?_
  rfl

end Rejudge

/-! ## Taking a proposal back -/

namespace Store

variable {s s' : Store} {q : Rejudging} {selection : Selection} {fullTest : Bool}
  {js : List Judging}

/-- In a rejudging without candidates there are no submissions either. -/
theorem Enrolled.rejudgingId_ne (he : s.Enrolled)
    (hnone : ∀ j ∈ s.judgings, j.rejudgingId ≠ some q.id) {r : Submission}
    (hr : r ∈ s.submissions) : r.rejudgingId ≠ some q.id := by
  intro hid
  obtain ⟨p, -, -, -, -, j, hj, -, hjid⟩ := he r hr q.id hid
  exact hnone j hj hjid

namespace Proposes

/-- All candidates wait for their turn in the rejudging. -/
theorem isQueued (h : s.Proposes s' q selection fullTest js) {j : Judging} (hj : j ∈ js) :
    j.rejudgingId = some q.id ∧ j.lifecycle = .queued := by
  obtain ⟨a, -, heq⟩ := h.candidate j hj
  rw [heq]
  exact ⟨rfl, rfl⟩

/-- They have ids that are not in use. -/
theorem lt_id (h : s.Proposes s' q selection fullTest js) {j : Judging} (hj : j ∈ js) :
    s.lastJudging < j.id := by
  have hid : j.id ∈ (List.range js.length).map fun i : Nat => s.lastJudging + 1 + (i : Int) :=
    h.ids ▸ List.mem_map_of_mem hj
  obtain ⟨i, -, hi⟩ := List.mem_map.mp hid
  omega

variable (hnone : ∀ j ∈ s.judgings, j.rejudgingId ≠ some q.id)
include hnone

/-- In a rejudging without candidates all those that wait are new. -/
theorem candidatesIn_queued (h : s.Proposes s' q selection fullTest js) :
    s'.candidatesIn q.id .queued = js := by
  rw [candidatesIn, Table.filter, h.judgings, List.filter_append]
  have hold : s.judgings.rows.filter (fun j => decide (j.rejudgingId = some q.id) &&
      decide (j.lifecycle = .queued)) = [] := by
    refine List.filter_eq_nil_iff.mpr fun j hj => ?_
    rw [decide_eq_false (hnone j hj), Bool.false_and]
    exact Bool.false_ne_true
  have hnew : js.filter (fun j => decide (j.rejudgingId = some q.id) &&
      decide (j.lifecycle = .queued)) = js := by
    refine List.filter_eq_self.mpr fun j hj => ?_
    obtain ⟨hid, hl⟩ := h.isQueued hj
    rw [decide_eq_true hid, decide_eq_true hl, Bool.and_self]
  rw [hold, hnew, List.nil_append]

/-- None of its candidates is held. -/
theorem candidatesIn_claimed (h : s.Proposes s' q selection fullTest js) :
    s'.candidatesIn q.id .claimed = [] := by
  refine List.filter_eq_nil_iff.mpr fun j hj => ?_
  rw [h.judgings, List.mem_append] at hj
  rcases hj with hj | hj
  · rw [decide_eq_false (hnone j hj), Bool.false_and]
    exact Bool.false_ne_true
  · rw [(h.isQueued hj).2, decide_eq_false (p := Lifecycle.queued = .claimed) (by decide),
      Bool.and_false]
    exact Bool.false_ne_true

/-- Without the candidates the judgings are what they were. -/
theorem judgings_cancel (h : s.Proposes s' q selection fullTest js) (now : Instant)
    (operator : Option Int) : (s'.cancelRejudging q.id now operator).judgings = s.judgings := by
  have hkeep : (s'.judgings.keep fun j => !(decide (j.rejudgingId = some q.id) && j.isQueued)) =
      s.judgings := by
    refine Table.ext ?_
    change s'.judgings.rows.filter _ = s.judgings.rows
    have hold : s.judgings.rows.filter
        (fun j => !(decide (j.rejudgingId = some q.id) && j.isQueued)) = s.judgings.rows := by
      refine List.filter_eq_self.mpr fun j hj => ?_
      rw [decide_eq_false (hnone j hj), Bool.false_and, Bool.not_false]
    have hnew : js.filter
        (fun j => !(decide (j.rejudgingId = some q.id) && j.isQueued)) = [] := by
      refine List.filter_eq_nil_iff.mpr fun j hj => ?_
      obtain ⟨hid, hl⟩ := h.isQueued hj
      rw [decide_eq_true hid, Judging.isQueued_iff.mpr hl]
      decide
    rw [h.judgings, List.filter_append, hold, hnew, List.append_nil]
  change (s'.judgings.keep fun j => !(decide (j.rejudgingId = some q.id) && j.isQueued)).update
    _ (JudgingPatch.abandon now).apply (JudgingPatch.abandon now).key_apply = s.judgings
  rw [hkeep]
  refine Table.update_eq_self fun j hj hheld => absurd ?_ (hnone j hj)
  rw [Bool.and_eq_true] at hheld
  exact of_decide_eq_true hheld.1

/-- No run was filed under a candidate. -/
theorem runs_cancel (h : s.Proposes s' q selection fullTest js) (hs : s.Numbered) (hf : s.Filed)
    (now : Instant) (operator : Option Int) :
    (s'.cancelRejudging q.id now operator).runs = s.runs := by
  have hruns : s'.runs = s.runs := by
    rw [h.frame]
  change s'.runs.keep (fun n =>
    !((s'.candidatesIn q.id .queued).map Judging.id).contains n.judgingId) = s.runs
  rw [h.candidatesIn_queued hnone, hruns]
  refine Table.keep_eq_self fun n hn => ?_
  rw [Bool.not_eq_true', ← Bool.not_eq_true, List.contains_iff_mem, List.mem_map]
  rintro ⟨j, hj, hid⟩
  obtain ⟨i, hi, hiid, -⟩ := hf.judging n hn
  have hlt := h.lt_id hj
  have hle := hs.judging_le i hi
  omega

/-- The submissions that were marked are free again, as they were before. -/
theorem release_eq (h : s.Proposes s' q selection fullTest js) (he : s.Enrolled) :
    s'.release q.id = s.submissions := by
  rw [release, h.submissions]
  refine Table.update_update_eq_self (fun r hr hselected => ?_) fun r hr _ => ?_
  · have hfree := s.rejudgingId_of_selected hr (List.contains_iff_mem.mp hselected)
    refine ⟨decide_eq_true rfl, ?_⟩
    rw [Submission.moved, Submission.moved, ← hfree]
  · exact decide_eq_false (he.rejudgingId_ne hnone hr)

/-- **A proposal that is taken back** leaves the decision behind, and the ids
that it has used up. -/
theorem cancelRejudging_eq (h : s.Proposes s' q selection fullTest js) (hs : s.Numbered)
    (hf : s.Filed) (he : s.Enrolled) (now : Instant) (operator : Option Int) :
    s'.cancelRejudging q.id now operator =
      { s with
        rejudgings := s.decided q.id false now operator
        lastJudging := s.lastJudging + js.length } := by
  have hframe : ∀ judgings runs submissions rejudgings,
      { s' with judgings, runs, submissions, rejudgings } =
        { s with
          judgings, runs, submissions, rejudgings, lastJudging := s.lastJudging + js.length } := by
    intro judgings runs submissions rejudgings
    rw [h.frame]
  have hdecided : s'.decided q.id false now operator = s.decided q.id false now operator := by
    rw [h.frame]
    rfl
  have hjudgings := h.judgings_cancel hnone now operator
  have hruns := h.runs_cancel hnone hs hf now operator
  refine (hframe _ _ _ _).trans ?_
  change { s with
    judgings := (s'.cancelRejudging q.id now operator).judgings
    runs := (s'.cancelRejudging q.id now operator).runs
    submissions := s'.release q.id
    rejudgings := s'.decided q.id false now operator
    lastJudging := s.lastJudging + js.length } = _
  rw [hjudgings, hruns, h.release_eq hnone he, hdecided]

end Proposes

end Store

namespace World

variable {w : World} {q : Rejudging} {selection : Selection}

/-- **Proposing and cancelling** is an open rejudging's way out and back. In a
reachable world a batch of a rejudging without candidates queues one for each
submission that is selected, marks these and changes nothing else. Cancelling
it at once answers as many deletions and nobody to tell, publishes nothing, and
leaves a world that differs from the first in the decision and in the ids that
have been used up. -/
theorem batchRejudge_cancelRejudging (h : w.Reachable) {ctx ctx' : Context}
    (hctx : ctx.faults = .none) (hctx' : ctx'.faults = .none) (hq : q ∈ w.store.rejudgings)
    (hopen : q.applied = none) (hnone : ∀ j ∈ w.store.judgings, j.rejudgingId ≠ some q.id)
    (hcontest : selection.contestId = q.contestId) (fullTest : Bool) (operator : Option Int) :
    ∃ js s', (Operation.batchRejudge selection (some q.id) fullTest).perform ctx w =
        ⟨.ok js, { w with store := s' }, []⟩ ∧
      w.store.Proposes s' q selection fullTest js ∧
      (Operation.cancelRejudging q.id operator).perform ctx' { w with store := s' } =
        ⟨.ok ⟨q.decide false ctx'.now operator, js.length, []⟩,
          { w with
            store := { w.store with
              rejudgings := w.store.decided q.id false ctx'.now operator
              lastJudging := w.store.lastJudging + js.length } }, []⟩ := by
  have hproposes := h.sound.proposes q selection fullTest
  have hq' : q ∈ (w.store.proposed q.id selection fullTest).rejudgings := by
    rw [hproposes.frame]
    exact hq
  refine ⟨_, _, transact_run hctx
    (Rejudge.run_batch_of_rejudging h.sound hq hopen hcontest fullTest), hproposes, ?_⟩
  refine (transact_run hctx' (Rejudge.run_cancel
    (w := { w with store := w.store.proposed q.id selection fullTest }) hq' hopen operator
    ctx'.now)).trans ?_
  rw [hproposes.candidatesIn_queued hnone, hproposes.candidatesIn_claimed hnone,
    hproposes.cancelRejudging_eq hnone h.sound.numbered h.graded.filed h.enrolled]
  rfl

/-- A rejudging of the small contest is open and has no candidates yet. -/
def contestOpened : World :=
  contestCounted.after (.createRejudging ⟨1, "", none⟩)

/-- In the small contest both submissions are proposed for a rejudging, and are
free again once it is cancelled. -/
theorem batchRejudge_cancelRejudging_contest :
    contestOpened.Reachable ∧ contestContext.faults = .none ∧
      contestOpened.store.selected { contestId := 1 } = [1, 2] ∧
      ∃ q ∈ contestOpened.store.rejudgings, q.applied = none ∧ q.contestId = 1 ∧
        (∀ j ∈ contestOpened.store.judgings, j.rejudgingId ≠ some q.id) ∧
        ∃ js s', (Operation.batchRejudge { contestId := 1 } (some q.id) true).perform
            contestContext contestOpened = ⟨.ok js, { contestOpened with store := s' }, []⟩ ∧
          contestOpened.store.Proposes s' q { contestId := 1 } true js ∧
          (Operation.cancelRejudging q.id none).perform contestContext
              { contestOpened with store := s' } =
            ⟨.ok ⟨q.decide false contestContext.now none, js.length, []⟩,
              { contestOpened with
                store := { contestOpened.store with
                  rejudgings := contestOpened.store.decided q.id false contestContext.now none
                  lastJudging := contestOpened.store.lastJudging + js.length } }, []⟩ := by
  have hfaults : contestContext.faults = .none := rfl
  have hreach : contestOpened.Reachable := reachable_contestCounted.after _
  have hrows : ∃ q ∈ contestOpened.store.rejudgings.rows, q.applied = none ∧ q.contestId = 1 ∧
      ∀ j ∈ contestOpened.store.judgings.rows, j.rejudgingId ≠ some q.id := by
    decide +kernel
  obtain ⟨q, hq, hopen, hcontest, hnone⟩ := hrows
  exact ⟨hreach, hfaults, by decide +kernel, q, hq, hopen, hcontest, hnone,
    batchRejudge_cancelRejudging hreach hfaults hfaults hq hopen hnone hcontest.symm true none⟩

end World

end JudgeQueue
