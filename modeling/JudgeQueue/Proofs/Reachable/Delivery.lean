import JudgeQueue.Proofs.Ledger.Recount
import JudgeQueue.Proofs.Reachable.Basic
import JudgeQueue.Subscriber
/-!
# Reachable worlds — events on their way to the statistics

Events that requests publish reach the subscriber at any later time, in any
order, and possibly more than once. A feed is a world together with the
events that have been published and those that have not been consumed yet.
A judging that waits to be counted is always told of by an event that is
still pending, so once all events are consumed the statistics are those that
a rebuild computes.
-/

namespace JudgeQueue

/-- A world with its published events, and those of them that the subscriber
has not consumed. -/
structure Feed where
  world : World
  published : List Event := []
  pending : List Event := []

namespace Feed

/-- A request publishes its events. -/
def request {α : Type} (f : Feed) (op : Operation α) (ctx : Context) : Feed :=
  let out := op.perform ctx f.world
  ⟨out.world, f.published ++ out.events, f.pending ++ out.events⟩

/-- The subscriber consumes an event. -/
def deliver (f : Feed) (ctx : Context) (n : Notification) : Feed :=
  { f with
    world := Subscriber.handle ctx f.world n
    pending := f.pending.filter fun e => e ≠ n.event }

/-- Requests and deliveries lead to the feed from supplied rows. Any published
event may be delivered, whether or not it has been before, and the subscriber
does not fail. -/
inductive Reachable : Feed → Prop
  | seeded {rows : Seed} (blobs : Blobs) (hfree : ∀ r ∈ rows.submissions, r.rejudgingId = none) :
      Reachable ⟨.seeded rows blobs, [], []⟩
  | request {α : Type} {f : Feed} (h : Reachable f) (op : Operation α) (ctx : Context) :
      Reachable (f.request op ctx)
  | deliver {f : Feed} (h : Reachable f) {ctx : Context} (hfaults : ctx.faults = .none)
      {n : Notification} (hpublished : n.event ∈ f.published) : Reachable (f.deliver ctx n)

/-- The judgings that wait to be counted are told of by pending events. -/
def Covered (f : Feed) : Prop :=
  ∀ j ∈ f.world.store.judgings, j.AwaitsCount → j.finished ∈ f.pending

variable {f : Feed}

/-! ## Steps -/

/-- **A request** tells of the judgings that it leaves to be counted. -/
theorem Covered.request {α : Type} (h : f.Covered) (hs : f.world.store.Sound) (op : Operation α)
    (ctx : Context) : (f.request op ctx).Covered := by
  intro j' hj' hawaits
  have ht := perform_trace op ctx hs
  rcases hs.announces_trace ht j' hj' hawaits with ⟨j, hj, hwaits, hfin⟩ | hmem
  · rw [← hfin]
    exact List.mem_append_left _ (h j hj hwaits)
  · exact List.mem_append_right _ hmem

/-- The end of a judging is handled by counting it. -/
theorem handle_judgingFinished {ctx : Context} {w : World} {n : Notification}
    {judgingId submissionId : Int} (hn : n.event = .judgingFinished judgingId submissionId) :
    Subscriber.handle ctx w n = ((Operation.judgingFinished judgingId).perform ctx w).world := by
  unfold Subscriber.handle
  rw [hn]

/-- Other events are not handled. -/
theorem handle_of_ne {ctx : Context} {w : World} {n : Notification}
    (hn : ∀ judgingId submissionId, n.event ≠ .judgingFinished judgingId submissionId) :
    Subscriber.handle ctx w n = w := by
  unfold Subscriber.handle
  split
  · next judgingId submissionId heq => exact absurd heq (hn judgingId submissionId)
  · rfl

/-- Without faults, the judging is flagged if it is active and has ended. -/
theorem store_judgingFinished {ctx : Context} (hfaults : ctx.faults = .none) (w : World)
    (judgingId : Int) :
    ∃ ds, ((Operation.judgingFinished judgingId).perform ctx w).world.store =
      (w.store.countJudging judgingId).mergeStatistics ds := by
  obtain ⟨ds, hds⟩ := Standings.run_judgingFinished (w := w) judgingId
  refine ⟨ds, ?_⟩
  rw [Operation.perform, transact_run hfaults hds]

/-- A judging that waits after another one was counted waited before. -/
theorem awaitsCount_of_countJudging {s : Store} {id : Int} {j : Judging}
    (hj : j ∈ (s.countJudging id).judgings) (hawaits : j.AwaitsCount) :
    j ∈ s.judgings ∧ j.id ≠ id := by
  have hrows : (s.countJudging id).judgings =
      s.judgings.modify id Judging.flagged Judging.key_flagged := rfl
  rw [hrows, Table.mem_modify] at hj
  rcases hj with ⟨i, hi, -, rfl⟩ | hkept
  · exact absurd hawaits i.not_awaitsCount_flagged
  · exact hkept

/-- **A delivery** takes away no event that a waiting judging still needs: the
judging that the event tells of is counted, or does not wait. -/
theorem Covered.deliver (h : f.Covered) {ctx : Context} (hfaults : ctx.faults = .none)
    (n : Notification) : (f.deliver ctx n).Covered := by
  intro j hj hawaits
  by_cases hfinished : ∃ judgingId submissionId, n.event = .judgingFinished judgingId submissionId
  · obtain ⟨judgingId, submissionId, hn⟩ := hfinished
    have hworld : (f.deliver ctx n).world =
        ((Operation.judgingFinished judgingId).perform ctx f.world).world :=
      handle_judgingFinished hn
    obtain ⟨ds, hds⟩ := store_judgingFinished hfaults f.world judgingId
    rw [hworld, hds] at hj
    -- what still waits is another judging, so its event is another one too
    obtain ⟨hmem, hne⟩ := awaitsCount_of_countJudging hj hawaits
    refine List.mem_filter.mpr ⟨h j hmem hawaits, decide_eq_true ?_⟩
    rw [hn]
    exact fun heq => hne (Event.judgingFinished.inj heq).1
  · have hworld : (f.deliver ctx n).world = f.world :=
      handle_of_ne fun judgingId submissionId hn => hfinished ⟨judgingId, submissionId, hn⟩
    rw [hworld] at hj
    refine List.mem_filter.mpr ⟨h j hj hawaits, decide_eq_true fun heq => ?_⟩
    exact hfinished ⟨j.id, j.submissionId, heq.symm⟩

/-- The world of a feed is one that requests lead to: what the subscriber does
could have been requested. -/
theorem Reachable.world (h : f.Reachable) : f.world.Reachable := by
  induction h with
  | seeded blobs hfree => exact ⟨_, blobs, hfree, .refl⟩
  | request _ op ctx ih => exact ih.steps (.perform .refl op ctx)
  | @deliver f _ ctx _ n _ ih =>
    by_cases hfinished : ∃ judgingId submissionId, n.event = .judgingFinished judgingId submissionId
    · obtain ⟨judgingId, submissionId, hn⟩ := hfinished
      have hsteps :
          f.world.Steps ((Operation.judgingFinished judgingId).perform ctx f.world).world :=
        .perform .refl _ ctx
      rw [← handle_judgingFinished hn] at hsteps
      exact ih.steps hsteps
    · have hworld : (f.deliver ctx n).world = f.world :=
        handle_of_ne fun judgingId submissionId hn => hfinished ⟨judgingId, submissionId, hn⟩
      rwa [hworld]

/-- **Waiting judgings are told of** in every feed. -/
theorem Reachable.covered (h : f.Reachable) : f.Covered := by
  induction h with
  | seeded => exact fun j hj => absurd hj Table.not_mem_empty
  | request h op ctx ih => exact ih.request h.world.sound op ctx
  | deliver _ hfaults _ ih => exact ih.deliver hfaults _

/-! ## Once all events are consumed -/

/-- **No event is needed twice and none is lost.** An active judging that has
ended is counted, or the event of its end is pending. So where no such event
is pending, rebuilding any contest comes to the counters and the flags that
are there already. -/
theorem counted_or_pending (h : f.Reachable) :
    (∀ j ∈ f.world.store.judgings, j.active = true → j.lifecycle = .finalized →
      j.counted = true ∨ j.finished ∈ f.pending) ∧
    ((∀ judgingId submissionId, .judgingFinished judgingId submissionId ∉ f.pending) →
      ∀ (contestId : Int) (ctx : Context), ctx.faults = .none →
        let out := (Operation.rebuildStatistics contestId).perform ctx f.world
        (∃ rows, out.answer = .ok rows) ∧
          (∀ k, out.world.store.statistics.counters k =
            f.world.store.statistics.counters k) ∧
          out.world.store.judgings = f.world.store.judgings) := by
  have hcounted : ∀ j ∈ f.world.store.judgings, j.active = true → j.lifecycle = .finalized →
      j.counted = true ∨ j.finished ∈ f.pending := by
    intro j hj hact hfin
    by_cases hflag : j.counted = true
    · exact .inl hflag
    · exact .inr (h.covered j hj ⟨hact, hfin, by simpa using hflag⟩)
  refine ⟨hcounted, fun hnone contestId ctx hfaults => ?_⟩
  have hall : ∀ j ∈ f.world.store.judgings, j.active = true → j.lifecycle = .finalized →
      j.counted = true :=
    fun j hj hact hfin => (hcounted j hj hact hfin).resolve_right (hnone j.id j.submissionId)
  obtain ⟨hjudgings, hcounters⟩ := h.world.sound.rebuild_eq h.world.balanced hall contestId
  rw [Operation.perform, transact_run hfaults (Standings.run_rebuild contestId)]
  exact ⟨⟨_, rfl⟩, hcounters, hjudgings⟩

/-- The small contest with its events: both judgings have ended. -/
def contestJudged : Feed :=
  let start : Feed := ⟨.seeded World.contestRows (.memory []), [], []⟩
  ((((((start.request (.enqueue 1) World.contestContext).request
    (.enqueue 2) World.contestContext).request
    (.register "host") World.contestContext).request
    (.claimJudging "host") World.contestContext).request
    (.claimJudging "host") World.contestContext).request
    (.reportCompilation "host" 1 false "") World.contestContext).request
    (.reportRuns "host" 2 [⟨1, .accepted, 0, 0, []⟩]) World.contestContext

/-- The ends of both judgings have been delivered, the later one first and
twice. -/
def contestDelivered : Feed :=
  ((contestJudged.deliver World.contestContext ⟨⟨0, false⟩, .judgingFinished 2 2⟩).deliver
    World.contestContext ⟨⟨0, false⟩, .judgingFinished 2 2⟩).deliver
    World.contestContext ⟨⟨0, false⟩, .judgingFinished 1 1⟩

/-- After the deliveries a rebuild of the small contest changes nothing. -/
theorem rebuild_contestDelivered :
    contestDelivered.Reachable ∧
      (∀ judgingId submissionId, .judgingFinished judgingId submissionId ∉
        contestDelivered.pending) ∧
      contestDelivered.world.store.statistics.counters ⟨1, 1, 1⟩ = (2, 1) ∧
      ((Operation.rebuildStatistics 1).perform World.contestContext
        contestDelivered.world).world.store.statistics.counters ⟨1, 1, 1⟩ = (2, 1) := by
  have hjudged : contestJudged.Reachable := by
    have hfree : ∀ r ∈ World.contestRows.submissions, r.rejudgingId = none := by decide
    exact (((((((Reachable.seeded _ hfree).request _ _).request _ _).request _ _).request
      _ _).request _ _).request _ _).request _ _
  have hpublished : .judgingFinished 1 1 ∈ contestJudged.published ∧
      .judgingFinished 2 2 ∈ contestJudged.published := by decide +kernel
  have hreach : contestDelivered.Reachable :=
    ((hjudged.deliver rfl hpublished.2).deliver rfl hpublished.2).deliver rfl hpublished.1
  have hpending : contestDelivered.pending =
      [.judgingBegun 1 1 "host", .judgingBegun 2 2 "host"] := by decide +kernel
  have hnone : ∀ judgingId submissionId,
      .judgingFinished judgingId submissionId ∉ contestDelivered.pending := by
    intro judgingId submissionId
    rw [hpending]
    simp
  have hcounters : contestDelivered.world.store.statistics.counters ⟨1, 1, 1⟩ = (2, 1) := by
    decide +kernel
  obtain ⟨-, hrebuilt, -⟩ := (counted_or_pending hreach).2 hnone 1 World.contestContext rfl
  exact ⟨hreach, hnone, hcounters, (hrebuilt ⟨1, 1, 1⟩).trans hcounters⟩

end Feed

end JudgeQueue
