import JudgeQueue.Proofs.Course.Turns
import Mathlib.Order.Defs.PartialOrder
/-!
# The course of the store — times

A judging starts when it is claimed, its runs are completed when they are
reported, and it stops when it ends. Each of these times is read off the clock
in the turn that it belongs to and kept from then on. So if the clock does not
go back from one turn to the next, the times of a judging are in order.
-/

namespace JudgeQueue

namespace Instant

/-- The nanoseconds of an instant within its second. A leap second goes on
counting in the second before it. -/
def withinSecond (t : Instant) : Int :=
  t.nanos % second + if t.leap then second else 0

/-- Instants follow each other by their seconds, and within a second by its
nanoseconds. -/
instance : LE Instant where
  le t u := t.nanos / second < u.nanos / second ∨
    t.nanos / second = u.nanos / second ∧ t.withinSecond ≤ u.withinSecond

theorem le_def {t u : Instant} :
    t ≤ u ↔ t.nanos / second < u.nanos / second ∨
      t.nanos / second = u.nanos / second ∧ t.withinSecond ≤ u.withinSecond := Iff.rfl

instance (t u : Instant) : Decidable (t ≤ u) :=
  decidable_of_iff _ le_def.symm

instance : Preorder Instant where
  le_refl _ := .inr ⟨rfl, Int.le_refl _⟩
  le_trans t u v htu huv := by
    rw [le_def] at *
    omega

end Instant

namespace Judging

variable {hosts : Table Judgehost} {now : Instant} {j j' : Judging}

/-- **The start of a judging** is when it was claimed. -/
theorem Turns.startTime (h : j.Turns hosts now j') :
    j'.startTime = j.startTime ∨ j.lifecycle = .queued ∧ j'.startTime = some now := by
  cases h with
  | flagged | abandoned => exact .inl rfl
  | claimed hl => exact .inr ⟨hl, rfl⟩
  | compiled _ success => cases success <;> exact .inl rfl
  | graded _ _ testcases text =>
    unfold Grading.graded
    simp only
    split <;> exact .inl rfl

/-- **Its stop** is when it ended. -/
theorem Turns.stopTime (h : j.Turns hosts now j') (hs : j.Shaped) :
    j'.stopTime = j.stopTime ∨ j.lifecycle = .claimed ∧ j'.stopTime = some now := by
  cases h with
  | flagged | claimed => exact .inl rfl
  | compiled hl success =>
    cases success with
    | true => exact .inl rfl
    | false => exact .inr ⟨hl, rfl⟩
  | graded hl _ testcases text =>
    unfold Grading.graded
    simp only
    split
    · exact .inr ⟨hl, rfl⟩
    · exact .inl rfl
  | abandoned hl =>
    rw [apply_abandon hl hs]
    exact .inr ⟨hl, rfl⟩

end Judging

namespace Store

/-- The times of a judging are in order: it starts, its runs are completed, and
it stops. -/
structure Chronological (s : Store) (j : Judging) : Prop where
  start_le_stop : ∀ t, j.startTime = some t → ∀ u, j.stopTime = some u → t ≤ u
  start_le : ∀ t, j.startTime = some t → ∀ n ∈ s.runs, n.judgingId = j.id → t ≤ n.completeTime
  le_stop : ∀ u, j.stopTime = some u → ∀ n ∈ s.runs, n.judgingId = j.id → n.completeTime ≤ u

/-- No time of the store is after an instant, and those of each judging are in
order. -/
structure Timed (s : Store) (last : Instant) : Prop where
  start_le : ∀ j ∈ s.judgings, ∀ t, j.startTime = some t → t ≤ last
  stop_le : ∀ j ∈ s.judgings, ∀ u, j.stopTime = some u → u ≤ last
  complete_le : ∀ n ∈ s.runs, n.completeTime ≤ last
  chronological : ∀ j ∈ s.judgings, s.Chronological j

variable {s s' : Store} {last now : Instant}

theorem Timed.mono (h : s.Timed last) (hle : last ≤ now) : s.Timed now where
  start_le j hj t ht := le_trans (h.start_le j hj t ht) hle
  stop_le j hj u hu := le_trans (h.stop_le j hj u hu) hle
  complete_le n hn := le_trans (h.complete_le n hn) hle
  chronological := h.chronological

section Turns

variable (hs : s.OnCourse) (hg : s.Graded) (h : s.Turns now s') (ht : s.Timed now)
  {j j' : Judging} (hj : j ∈ s.judgings) (hturn : j.Turns s.judgehosts now j')

include h hj hturn in
/-- A run of a judging that takes a turn was there before, or it has been added
while the judging was held. -/
theorem Turns.run_cases {n : Run} (hn : n ∈ s'.runs) (hid : n.judgingId = j'.id) :
    n ∈ s.runs ∧ n.judgingId = j.id ∨ n.completeTime = now ∧ j.lifecycle = .claimed := by
  have hid : n.judgingId = j.id := hid.trans hturn.id
  rcases h.runs n hn with hn | ⟨htime, i, hi, hin, hl⟩
  · exact .inl ⟨hn, hid⟩
  · rw [judging_eq hi hj (hin.trans hid)] at hl
    exact .inr ⟨htime, hl⟩

include ht

include hj hturn in
/-- No judging that takes a turn starts later than now. -/
theorem Timed.start_turns {t : Instant} (hstart : j'.startTime = some t) : t ≤ now := by
  rcases hturn.startTime with hsame | ⟨-, hnow⟩
  · exact ht.start_le j hj t (hsame.symm.trans hstart)
  · rw [hnow] at hstart
    cases hstart
    exact le_refl now

include hs hj hturn in
/-- Nor does it stop later than now. -/
theorem Timed.stop_turns {u : Instant} (hstop : j'.stopTime = some u) : u ≤ now := by
  rcases hturn.stopTime (hs.shaped j hj) with hsame | ⟨-, hnow⟩
  · exact ht.stop_le j hj u (hsame.symm.trans hstop)
  · rw [hnow] at hstop
    cases hstop
    exact le_refl now

include h

/-- No run is completed later than now. -/
theorem Timed.complete_turns {n : Run} (hn : n ∈ s'.runs) : n.completeTime ≤ now := by
  rcases h.runs n hn with hn | ⟨htime, -⟩
  · exact ht.complete_le n hn
  · exact le_of_eq htime

include hs hg

include hj hturn in
/-- A judging that takes a turn keeps its times in order. -/
theorem OnCourse.chronological_turns : s'.Chronological j' := by
  have hbefore := ht.chronological j hj
  refine ⟨fun t hstart u hstop => ?start_le_stop, fun t hstart n hn hid => ?start_le,
    fun u hstop n hn hid => ?le_stop⟩
  case start_le_stop =>
    rcases hturn.stopTime (hs.shaped j hj) with hsame | ⟨-, hnow⟩
    · rcases hturn.startTime with hsame' | ⟨hl, -⟩
      · exact hbefore.start_le_stop t (hsame'.symm.trans hstart) u (hsame.symm.trans hstop)
      · -- one that has just been claimed has not stopped
        rw [hsame, (hs.shaped j hj).waiting hl] at hstop
        cases hstop
    · rw [hnow] at hstop
      cases hstop
      exact ht.start_turns hj hturn hstart
  case start_le =>
    rcases h.run_cases hj hturn hn hid with ⟨hn, hid⟩ | ⟨htime, -⟩
    · rcases hturn.startTime with hsame | ⟨hl, -⟩
      · exact hbefore.start_le t (hsame.symm.trans hstart) n hn hid
      · -- one that waited has no runs
        exact absurd hl (hg.filed.lifecycle_ne_queued hj hn hid)
    · rw [htime]
      exact ht.start_turns hj hturn hstart
  case le_stop =>
    rcases hturn.stopTime (hs.shaped j hj) with hsame | ⟨-, hnow⟩
    · rcases h.run_cases hj hturn hn hid with ⟨hn, hid⟩ | ⟨-, hclaimed⟩
      · exact hbefore.le_stop u (hsame.symm.trans hstop) n hn hid
      · rw [hsame, ((hs.shaped j hj).held hclaimed).2.2.1] at hstop
        cases hstop
    · rw [hnow] at hstop
      cases hstop
      exact ht.complete_turns h hn

/-- **Every turn keeps the times in order.** -/
theorem OnCourse.timed_turns : s'.Timed now where
  start_le j' hj' t hstart := by
    rcases h.rows j' hj' with ⟨j, hj, hturn⟩ | ⟨new, -, rfl⟩
    · exact ht.start_turns hj hturn hstart
    · cases hstart
  stop_le j' hj' u hstop := by
    rcases h.rows j' hj' with ⟨j, hj, hturn⟩ | ⟨new, -, rfl⟩
    · exact ht.stop_turns hs hj hturn hstop
    · cases hstop
  complete_le _ hn := ht.complete_turns h hn
  chronological j' hj' := by
    rcases h.rows j' hj' with ⟨j, hj, hturn⟩ | ⟨new, -, rfl⟩
    · exact hs.chronological_turns hg h ht hj hturn
    · exact ⟨fun t hstart => (by cases hstart), fun t hstart => (by cases hstart),
        fun u hstop => (by cases hstop)⟩

end Turns

end Store

end JudgeQueue
