import JudgeQueue.Proofs.Course.Clock
import JudgeQueue.Proofs.Course.Links
import JudgeQueue.Proofs.Reachable.Course
/-!
# Reachable worlds — the shape of judgings

The fields of a judging are loosely coupled and written by many requests, but
how far it has come decides which of them are set. What it names is there, and
as long as the clock does not go back from one request to the next its times
are in order.
-/

namespace JudgeQueue

/-- Only a judging that has ended has a verdict. -/
theorem Judging.Shaped.finalized_of_verdict {j : Judging} (h : j.Shaped) (hv : j.verdict ≠ none) :
    j.lifecycle = .finalized := by
  cases hl : j.lifecycle with
  | queued =>
    rw [h.waiting hl] at hv
    exact absurd rfl hv
  | claimed => exact absurd (h.held hl).2.2.2 hv
  | finalized => rfl

namespace Store

/-- The fields of a judging agree with how far it has come, and with the rows
beside it. -/
structure WellFormed (s : Store) (j : Judging) : Prop where
  queued : j.lifecycle = .queued →
    (j.server = none ∧ j.startTime = none ∧ j.stopTime = none ∧ j.verdict = none) ∧
      (j.executeTime = none ∧ j.executeMemory = none ∧ j.compileOutput = none) ∧
      j.totalScore = 0.0 ∧ j.runVerdicts = "" ∧ (∀ n ∈ s.runs, n.judgingId ≠ j.id) ∧
      j.counted = false
  claimed : j.lifecycle = .claimed →
    j.startTime ≠ none ∧ (∃ h ∈ s.judgehosts, j.server = some h.hostname) ∧
      j.verdict = none ∧ j.stopTime = none ∧ j.counted = false
  finalized : j.lifecycle = .finalized →
    j.server ≠ none ∧ j.startTime ≠ none ∧ j.stopTime ≠ none ∧ j.verdict ≠ none
  abandoned : j.verdict = some .undefinedError →
    j.active = false ∧ j.counted = false ∧ j.rejudgingId = none ∧ j.previousJudgingId = none
  previous : ∀ id, j.previousJudgingId = some id →
    ∃ p ∈ s.judgings, p.id = id ∧ p.submissionId = j.submissionId ∧ p.id < j.id

variable {s : Store} {j : Judging}

/-- An abandoned judging speaks for nothing, and the statistics do not include
it. -/
theorem OnCourse.not_active_of_abandoned (h : s.OnCourse) (hj : j ∈ s.judgings)
    (hv : j.verdict = some .undefinedError) : j.active = false ∧ j.counted = false := by
  have hl : j.lifecycle = .finalized :=
    (h.shaped j hj).finalized_of_verdict (by rw [hv]; exact Option.some_ne_none _)
  have hactive : j.active = false := by
    rcases ((h.sound.ordered j hj).ended hl) with ⟨v, hv', hne⟩ | ⟨hactive, -⟩
    · exact absurd (Option.some.inj (hv'.symm.trans hv)) hne
    · exact hactive
  refine ⟨hactive, ?_⟩
  by_contra hcounted
  have hspeaks := ((h.sound.ordered j hj).counted (by simpa using hcounted)).1
  rw [hactive] at hspeaks
  cases hspeaks

/-- **Judgings are well formed** where they have their shape, runs are filed
and links in place. -/
theorem OnCourse.wellFormed (h : s.OnCourse) (hf : s.Filed) (hl : s.Linked)
    (hj : j ∈ s.judgings) : s.WellFormed j := by
  have hshaped := h.shaped j hj
  have hlinks := hl j hj
  refine ⟨fun hq => ?queued, fun hc => ?claimed, hshaped.ended, fun hv => ?abandoned,
    fun id hid => ?previous⟩
  case queued =>
    have hruns : ∀ n ∈ s.runs, n.judgingId ≠ j.id :=
      fun n hn hid => hf.lifecycle_ne_queued hj hn hid hq
    have hwaiting := hshaped.waiting hq
    refine ⟨?_, ?_, ?_, ?_, hruns, ?_⟩ <;> rw [hwaiting]
    · exact ⟨rfl, rfl, rfl, rfl⟩
    · exact ⟨rfl, rfl, rfl⟩
    · rfl
    · rfl
    · rfl
  case claimed =>
    obtain ⟨hserver, hstart, hstop, hverdict⟩ := hshaped.held hc
    obtain ⟨hostname, hname⟩ := Option.ne_none_iff_exists'.mp hserver
    obtain ⟨host, hhost⟩ := Option.isSome_iff_exists.mp (hlinks.server hostname hname)
    obtain ⟨hmem, hkey⟩ := Table.find?_eq_some_iff.mp hhost
    have hkey : host.hostname = hostname := hkey
    refine ⟨hstart, ⟨host, hmem, hkey ▸ hname⟩, hverdict, hstop, ?_⟩
    exact h.sound.counted_of_not_finalized hj (by rw [hc]; decide)
  case abandoned =>
    obtain ⟨hactive, hcounted⟩ := h.not_active_of_abandoned hj hv
    exact ⟨hactive, hcounted, hlinks.abandoned hv⟩
  case previous =>
    obtain ⟨p, hp, hpid, hlt, hsub, -⟩ := hlinks.previous id hid
    exact ⟨p, hp, hpid, hsub, hlt⟩

theorem linked_seed {rows : Seed} : (({} : Store).seed rows).Linked :=
  fun _ hj => absurd hj Table.not_mem_empty

theorem timed_seed {rows : Seed} (last : Instant) : (({} : Store).seed rows).Timed last :=
  ⟨fun _ hj => absurd hj Table.not_mem_empty, fun _ hj => absurd hj Table.not_mem_empty,
    fun _ hn => absurd hn Table.not_mem_empty, fun _ hj => absurd hj Table.not_mem_empty⟩

end Store

namespace World

variable {w w' : World} {last : Instant}

/-- Requests lead from one world to another, and the clock does not go back
from one to the next. The last one is answered at this instant; before the
first it may be any. -/
inductive StepsInOrder (w : World) : Instant → World → Prop
  | refl (last : Instant) : StepsInOrder w last w
  | perform {α : Type} {last : Instant} {w' : World} (h : StepsInOrder w last w')
      (op : Operation α) (ctx : Context) (hle : last ≤ ctx.now) :
      StepsInOrder w ctx.now (op.perform ctx w').world

/-- Requests lead to the world from supplied rows while the clock does not go
back. -/
def ArisesInOrder (w : World) : Prop :=
  ∃ rows blobs last, (seeded rows blobs).StepsInOrder last w

theorem StepsInOrder.steps (h : w.StepsInOrder last w') : w.Steps w' := by
  induction h with
  | refl => exact .refl
  | perform _ op ctx _ ih => exact ih.perform op ctx

/-! ## Along requests -/

/-- **Requests keep the links** in place, and each judging keeps its own. -/
theorem Steps.linked (h : w.Steps w') (hs : w.store.OnCourse) (hg : w.store.Graded)
    (hl : w.store.Linked) :
    w'.store.Linked ∧ w.store.judgings.Grows Judging.Passes w.store.lastJudging
      w'.store.judgings w'.store.lastJudging := by
  induction h with
  | refl => exact ⟨hl, .refl _ _⟩
  | @perform α w' h op ctx ih =>
    have hcourse := (h.unfolds hs).2
    have hgraded := h.graded hs.sound hg
    refine hcourse.keeps_trace (P := fun s => s.Linked ∧ w.store.judgings.Grows Judging.Passes
      w.store.lastJudging s.judgings s.lastJudging) (fun hs _ hs' ht hp => ?_) hgraded
      (perform_trace op ctx hcourse.sound) ih
    exact ⟨hs.linked_turns ht hp.1, hp.2.trans (hs.grows_passes ht hs')⟩

theorem Arises.linked (h : w.Arises) : w.store.Linked := by
  obtain ⟨rows, blobs, hw⟩ := h
  exact (hw.linked onCourse_seed Store.graded_seed Store.linked_seed).1

/-- **Requests keep the times in order** as long as the clock does not go
back. -/
theorem StepsInOrder.timed (h : w.StepsInOrder last w') (hs : w.store.OnCourse)
    (hg : w.store.Graded) (ht : ∀ t, w.store.Timed t) : w'.store.Timed last := by
  induction h with
  | refl last => exact ht last
  | perform h op ctx hle ih =>
    have hcourse := (h.steps.unfolds hs).2
    exact hcourse.keeps_trace (P := fun s => s.Timed ctx.now)
      (fun hs hg _ ht htimed => hs.timed_turns hg ht htimed) (h.steps.graded hs.sound hg)
      (perform_trace op ctx hcourse.sound) (ih.mono hle)

/-- **The shape of judgings.** In every world that arises from supplied rows
the fields of each judging are set as far as it has come, an abandoned one
stands for nothing, and what it names is there. If the clock did not go back on
the way, the judging started before its runs were completed, and these before
it stopped. -/
theorem wellFormed_of_arises (h : w.Arises) {j : Judging} (hj : j ∈ w.store.judgings) :
    w.store.WellFormed j ∧ (w.ArisesInOrder → w.store.Chronological j) := by
  refine ⟨h.onCourse.wellFormed h.graded.filed h.linked hj, ?_⟩
  rintro ⟨rows, blobs, last, hw⟩
  exact (hw.timed onCourse_seed Store.graded_seed Store.timed_seed).chronological j hj

/-! ## The small contest, a second later -/

/-- What a request of the contest leads to while the clock stands still. -/
theorem StepsInOrder.after {α : Type} (h : w.StepsInOrder contestContext.now w')
    (op : Operation α) : w.StepsInOrder contestContext.now (w'.after op) :=
  h.perform op contestContext (le_refl _)

/-- The second judging ends a second after it has been claimed. -/
def contestTimed : World :=
  ((Operation.reportRuns "host" 2 [⟨1, .accepted, 0, 0, []⟩]).perform
    { contestContext with now := ⟨Instant.second, false⟩ } contestClaimed).world

theorem arisesInOrder_contestTimed : contestTimed.ArisesInOrder := by
  have hclaimed : (seeded contestRows (.memory [])).StepsInOrder contestContext.now
      contestClaimed :=
    (((((StepsInOrder.refl _).after _).after _).after _).after _).after _
  exact ⟨_, _, _, hclaimed.perform _ _ (by decide)⟩

/-- One judging of the contest is held, and the other has ended a second after
its start, as its run was completed. -/
theorem wellFormed_contestTimed :
    contestTimed.Arises ∧ contestTimed.ArisesInOrder ∧
      (∃ j ∈ contestTimed.store.judgings, j.lifecycle = .claimed ∧
        contestTimed.store.WellFormed j) ∧
      ∃ j ∈ contestTimed.store.judgings, j.stopTime = some ⟨Instant.second, false⟩ ∧
        contestTimed.store.WellFormed j ∧ contestTimed.store.Chronological j ∧
        ∃ n ∈ contestTimed.store.runs, n.judgingId = j.id := by
  have horder := arisesInOrder_contestTimed
  have harises : contestTimed.Arises := by
    obtain ⟨rows, blobs, last, hw⟩ := horder
    exact ⟨rows, blobs, hw.steps⟩
  have hheld : ∃ j ∈ contestTimed.store.judgings.rows, j.lifecycle = .claimed := by
    decide +kernel
  have hended : ∃ j ∈ contestTimed.store.judgings.rows,
      j.stopTime = some ⟨Instant.second, false⟩ ∧
        ∃ n ∈ contestTimed.store.runs.rows, n.judgingId = j.id := by
    decide +kernel
  obtain ⟨i, hi, hil⟩ := hheld
  obtain ⟨j, hj, hstop, hrun⟩ := hended
  obtain ⟨hformed, hchron⟩ := wellFormed_of_arises harises hj
  exact ⟨harises, horder, ⟨i, hi, hil, (wellFormed_of_arises harises hi).1⟩, j, hj, hstop, hformed,
    hchron horder, hrun⟩

end World

end JudgeQueue
