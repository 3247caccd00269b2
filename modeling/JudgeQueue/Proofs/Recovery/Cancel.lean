import JudgeQueue.Proofs.Graded.Moves
import JudgeQueue.Proofs.Ledger.Apply
import JudgeQueue.Proofs.Recovery.Requeue
/-!
# Recovery — rejudgings that are cancelled

Cancelling treats the candidates of a rejudging as they stand: those that wait
go, those that are held are abandoned, and those that have ended stay. None of
them speaks for its submission, so nothing that counts is touched. A judgehost
that reports on a judging which it does not hold any more has no effect but
that it was heard of.
-/

namespace JudgeQueue

open Transaction

namespace Store

/-- The candidates of a rejudging that have come so far. -/
def candidatesIn (s : Store) (id : Int) (l : Lifecycle) : List Judging :=
  s.judgings.filter fun j => decide (j.rejudgingId = some id) && decide (j.lifecycle = l)

/-- What cancelling a rejudging does to a store. Of its candidates those that
wait are gone, those that are held are abandoned, and its submissions are
free. -/
structure Cancels (s : Store) (q : Rejudging) (now : Instant) (operator : Option Int)
    (s' : Store) : Prop where
  judgings : ∀ b, b ∈ s'.judgings ↔
    (∃ a ∈ s.judgings, a.rejudgingId = some q.id ∧ a.lifecycle = .claimed ∧
      b = a.abandonedAt now) ∨
      b ∈ s.judgings ∧ (b.rejudgingId = some q.id → b.lifecycle = .finalized)
  deleted : ∀ d ∈ s.judgings, d.rejudgingId = some q.id → d.lifecycle = .queued →
    ∀ b ∈ s'.judgings, b.id ≠ d.id
  /-- What speaks for a submission, or is counted, is the same. -/
  speaking : ∀ j : Judging, j.active = true ∨ j.counted = true →
    (j ∈ s'.judgings ↔ j ∈ s.judgings)
  counted : ∀ a ∈ s.judgings, ∀ b ∈ s'.judgings, b.id = a.id → b.counted = a.counted
  submissions : ∀ b, b ∈ s'.submissions ↔
    ∃ r ∈ s.submissions, b = if r.rejudgingId = some q.id then r.moved none else r
  rejudgings : ∀ p, p ∈ s'.rejudgings ↔
    p = q.decide false now operator ∨ p ∈ s.rejudgings ∧ p.id ≠ q.id
  /-- Everything else stays as it is, also the runs and the statistics. -/
  frame : s' = { s with
    judgings := s'.judgings
    submissions := s'.submissions
    rejudgings := s'.rejudgings }

variable {s : Store} {q : Rejudging} {now : Instant} {operator : Option Int}

/-- A judging after a rejudging is cancelled, with its claimed candidates as
they are left. -/
theorem OnCourse.mem_cancel_iff (h : s.OnCourse) {b : Judging} :
    b ∈ (s.cancelRejudging q.id now operator).judgings ↔
      (∃ a ∈ s.judgings, a.rejudgingId = some q.id ∧ a.lifecycle = .claimed ∧
        b = a.abandonedAt now) ∨
        b ∈ s.judgings ∧ (b.rejudgingId = some q.id → b.lifecycle = .finalized) := by
  rw [mem_judgings_cancelRejudging]
  refine or_congr_left (exists_congr fun a => and_congr_right fun ha =>
    and_congr_right fun _ => and_congr_right fun hl => ?_)
  rw [Judging.apply_abandon hl (h.shaped a ha)]
  rfl

/-- **A store whose rejudging has been cancelled.** -/
theorem OnCourse.cancels (h : s.OnCourse) (hg : s.Graded) (hq : q ∈ s.rejudgings)
    (hopen : q.applied = none) (now : Instant) (operator : Option Int) :
    s.Cancels q now operator (s.cancelRejudging q.id now operator) := by
  refine ⟨fun b => h.mem_cancel_iff, ?deleted, ?speaking, ?counted, fun b => mem_release,
    ?rejudgings, ?frame⟩
  case deleted =>
    intro d hd hid hl b hb heq
    rcases h.mem_cancel_iff.mp hb with ⟨a, ha, -, hheld, rfl⟩ | ⟨hb, hended⟩
    · rw [judging_eq ha hd heq, hl] at hheld
      cases hheld
    · rw [judging_eq hb hd heq, hl] at hended
      cases hended hid
  case speaking =>
    intro j hj
    have hactive : j ∈ s.judgings → j.active = true := fun hmem =>
      hj.elim id fun hcounted => ((h.sound.ordered j hmem).counted hcounted).1
    constructor
    · intro hmem
      rcases h.mem_cancel_iff.mp hmem with ⟨a, ha, -, hl, rfl⟩ | ⟨hmem, -⟩
      · -- one that is abandoned does not speak, and was not counted
        have hcounted : a.counted = false :=
          h.sound.counted_of_not_finalized ha (by rw [hl]; decide)
        rcases hj with hact | hcount
        · cases hact
        · have hcount : a.counted = true := hcount
          rw [hcounted] at hcount
          cases hcount
      · exact hmem
    · exact fun hmem => h.sound.mem_cancel_of_active hq hopen hmem (hactive hmem)
  case counted =>
    intro a ha b hb hid
    rcases h.mem_cancel_iff.mp hb with ⟨c, hc, -, -, rfl⟩ | ⟨hb, -⟩
    · rw [← judging_eq hc ha hid]
      rfl
    · rw [judging_eq hb ha hid]
  case rejudgings =>
    intro p
    refine mem_decided.trans (or_congr_left ⟨?_, fun heq => ⟨q, hq, rfl, heq⟩⟩)
    rintro ⟨p', hp', hid, rfl⟩
    rw [rejudging_eq hp' hq hid]
  case frame =>
    have hruns := (keepsGrades_cancelRejudging hg q.id now operator).runs
    conv_rhs => rw [← hruns]
    rfl

end Store

namespace Rejudge

variable {w : World} {q : Rejudging}

/-- Abandoning some judgings is left out if there are none. -/
theorem run_abandon {α : Type} (p : Judging → Bool) (now : Instant)
    (rest : Transaction (Ending α)) :
    (if !((w.store.judgings.filter p).map Judging.id).isEmpty then do
      let _ ← ask (.updateJudgings (.ofIds ((w.store.judgings.filter p).map Judging.id))
        (.abandon now))
      rest
    else rest).run w = rest.run { w with store := w.store.abandonAll p now } := by
  split
  · rw [run_bind (run_ask rfl), updateJudgings_abandon]
  · next hempty =>
    rw [Bool.not_eq_true', Bool.not_eq_false] at hempty
    rw [abandonAll_of_isEmpty hempty]

/-- **An open rejudging** is cancelled. -/
theorem run_cancel (hq : q ∈ w.store.rejudgings) (hopen : q.applied = none) (operator : Option Int)
    (now : Instant) :
    (cancel q.id operator now).run w =
      (.ok (.commit ⟨q.decide false now operator, (w.store.candidatesIn q.id .queued).length,
        (w.store.candidatesIn q.id .claimed).map Judging.id⟩
        ((w.store.candidatesIn q.id .claimed).map Judging.finished)),
        { w with store := w.store.cancelRejudging q.id now operator }) := by
  have hdelete : (Query.deleteJudgings { rejudgingId := some q.id, lifecycle := some .queued }).run
      w.store = .ok ((w.store.candidatesIn q.id .queued).length, dropQueued w.store q.id) := by
    rw [Query.run, dropQueued, Store.deleteJudgings, List.length_map, admits_rejudging_lifecycle]
    rfl
  have hheld : (dropQueued w.store q.id).judgings.filter (fun j =>
      decide (j.rejudgingId = some q.id) && decide (j.lifecycle = .claimed)) =
      w.store.candidatesIn q.id .claimed := filter_claimed_dropQueued q.id
  have hdecide : (Query.updateRejudging (q.decide false now operator)).run
      (((dropQueued w.store q.id).abandonAll (fun j => decide (j.rejudgingId = some q.id) &&
        decide (j.lifecycle = .claimed)) now).setSubmissionsRejudging (.ofRejudging q.id) none).2 =
      .ok ((), w.store.cancelRejudging q.id now operator) := by
    rw [Query.run, updateRejudging_cancel hq hopen]
    rfl
  rw [cancel, run_bind (run_loadOpen hq hopen), run_bind (run_ask hdelete), run_bind (run_ask rfl)]
  simp only
  rw [admits_rejudging_lifecycle]
  refine (run_abandon (w := { w with store := dropQueued w.store q.id }) _ now _).trans ?_
  rw [run_bind (run_ask rfl), run_bind (run_ask hdecide), hheld]
  rfl

end Rejudge

/-! ## Late reports -/

section Late

variable {w : World} {j : Judging} {hostname : String}

/-- **A late report on a compilation** has no effect. -/
theorem Dispatch.run_reportCompilation_of_not_held (hj : j ∈ w.store.judgings)
    (hheld : j.isClaimedBy hostname = false) (success : Bool) (output : String) (now : Instant) :
    (reportCompilation hostname j.id success output now).run w =
      (.ok (.commit none []), { w with store := w.store.touchJudgehost hostname now }) := by
  have hload : (loadJudging j.id).run
      { w with store := w.store.touchJudgehost hostname now } = (.ok j, _) :=
    run_loadJudging hj
  rw [reportCompilation, run_bind (run_heartbeat hostname now)]
  cases w.store.admits hostname with
  | false => rfl
  | true =>
    rw [Bool.not_true, if_neg Bool.false_ne_true, run_bind hload, hheld, Bool.not_false, if_pos rfl]
    rfl

/-- **A late report on runs** has none either. -/
theorem Grading.run_reportRuns_of_not_held (hj : j ∈ w.store.judgings)
    (hheld : j.isClaimedBy hostname = false) {reports : List RunReport}
    (hverdict : ∀ p ∈ reports, p.verdict.isRunVerdict = true) (now : Instant) :
    (reportRuns hostname j.id reports now).run w =
      (.ok (.commit none []), { w with store := w.store.touchJudgehost hostname now }) := by
  have hload : (loadJudging j.id).run
      { w with store := w.store.touchJudgehost hostname now } = (.ok j, _) :=
    run_loadJudging hj
  have hall : reports.find? (fun p => !p.verdict.isRunVerdict) = none := by
    rw [List.find?_eq_none]
    intro p hp
    rw [hverdict p hp, Bool.not_true]
    exact Bool.false_ne_true
  rw [reportRuns, hall]
  simp only
  rw [run_bind (run_heartbeat hostname now)]
  cases w.store.admits hostname with
  | false => rfl
  | true =>
    rw [Bool.not_true, if_neg Bool.false_ne_true, run_bind hload, hheld, if_neg Bool.false_ne_true]
    rfl

end Late

end JudgeQueue
