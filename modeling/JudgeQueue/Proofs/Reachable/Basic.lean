import JudgeQueue.Proofs.Trace.Perform
/-!
# Reachable worlds

A world is reachable if requests lead to it from rows that contest
administration has supplied. The rows come with submissions outside of any
rejudging; the requests are any, in any order and number, each at an instant
of its own and with faults of its own. The store of a reachable world is
sound and its ledger is balanced.
-/

namespace JudgeQueue

/-- What comes of several requests: their answers in order, the world after
them, and the events that they published. -/
structure Outcomes (α : Type) where
  answers : List (Except Error α)
  world : World
  events : List Event

/-- Performs requests of one kind one after another, each with what it finds
around it. -/
def Operation.performAll {α : Type} : List (Operation α × Context) → World → Outcomes α
  | [], w => ⟨[], w, []⟩
  | (op, ctx) :: rest, w =>
    let first := op.perform ctx w
    let others := performAll rest first.world
    ⟨first.answer :: others.answers, others.world, first.events ++ others.events⟩

namespace World

/-- Requests lead from one world to another. -/
inductive Steps (w : World) : World → Prop
  | refl : Steps w w
  | perform {α : Type} {w' : World} (h : Steps w w') (op : Operation α) (ctx : Context) :
      Steps w (op.perform ctx w').world

/-- The world before any request, with the supplied rows. -/
def seeded (rows : Seed) (blobs : Blobs) : World :=
  ⟨({} : Store).seed rows, blobs⟩

/-- Requests lead to the world from supplied rows. -/
def Reachable (w : World) : Prop :=
  ∃ rows blobs, (∀ r ∈ rows.submissions, r.rejudgingId = none) ∧ (seeded rows blobs).Steps w

/-- Requests lead to the world from supplied rows, whatever these say of
rejudgings. -/
def Arises (w : World) : Prop :=
  ∃ rows blobs, (seeded rows blobs).Steps w

variable {w w' w₁ : World}

theorem Steps.trans (h : w.Steps w₁) (h' : w₁.Steps w') : w.Steps w' := by
  induction h' with
  | refl => exact h
  | perform _ op ctx ih => exact ih.perform op ctx

/-- What is reachable stays so under requests. -/
theorem Reachable.steps (h : w.Reachable) (hs : w.Steps w') : w'.Reachable := by
  obtain ⟨rows, blobs, hfree, hw⟩ := h
  exact ⟨rows, blobs, hfree, hw.trans hs⟩

theorem Reachable.arises (h : w.Reachable) : w.Arises := by
  obtain ⟨rows, blobs, -, hw⟩ := h
  exact ⟨rows, blobs, hw⟩

theorem Arises.steps (h : w.Arises) (hs : w.Steps w') : w'.Arises := by
  obtain ⟨rows, blobs, hw⟩ := h
  exact ⟨rows, blobs, hw.trans hs⟩

end World

namespace Store

variable {rows : Seed}

/-! ## Supplied rows -/

/-- The submissions of a fresh store are those that were supplied. -/
theorem mem_submissions_seed {r : Submission} (h : r ∈ (({} : Store).seed rows).submissions) :
    r ∈ rows.submissions := by
  rcases Table.mem_foldl_insert h with h | h
  · exact h
  · exact absurd h Table.not_mem_empty

/-- Supplied rows are in order, for want of judgings and rejudgings. -/
theorem sound_seed : (({} : Store).seed rows).Sound := by
  have hjudging : ∀ j, ¬ j ∈ (({} : Store).seed rows).judgings := fun _ => Table.not_mem_empty
  have hrejudging : ∀ q, ¬ q ∈ (({} : Store).seed rows).rejudgings := fun _ => Table.not_mem_empty
  have hrun : ∀ n, ¬ n ∈ (({} : Store).seed rows).runs := fun _ => Table.not_mem_empty
  refine ⟨?numbered, ?ordered, ?authority, ?membership, fun n hn => absurd hn (hrun n)⟩
  case numbered =>
    exact ⟨fun j hj => absurd hj (hjudging j), fun q hq => absurd hq (hrejudging q),
      fun j hj => absurd hj (hjudging j)⟩
  case ordered => exact fun j hj => absurd hj (hjudging j)
  case authority =>
    exact ⟨fun j hj => absurd hj (hjudging j), fun a ha => absurd ha (hjudging a)⟩
  case membership =>
    exact ⟨fun j hj => absurd hj (hjudging j), fun q hq => absurd hq (hrejudging q),
      fun q hq => absurd hq (hrejudging q), fun q hq => absurd hq (hrejudging q)⟩

/-- Submissions that are supplied outside of any rejudging need no
candidates. -/
theorem enrolled_seed (hfree : ∀ r ∈ rows.submissions, r.rejudgingId = none) :
    (({} : Store).seed rows).Enrolled := by
  intro r hr id hid
  rw [hfree r (mem_submissions_seed hr)] at hid
  cases hid

theorem balanced_seed : (({} : Store).seed rows).Balanced := by
  intro k
  rfl

end Store

namespace World

variable {w w' : World}

/-! ## Along requests -/

/-- Requests keep the store sound. -/
theorem Steps.sound (h : w.Steps w') (hs : w.store.Sound) : w'.store.Sound := by
  induction h with
  | refl => exact hs
  | perform _ op ctx ih => exact ih.trace (perform_trace op ctx ih)

/-- Requests keep the ledger balanced. -/
theorem Steps.balanced (h : w.Steps w') (hs : w.store.Sound) (hb : w.store.Balanced) :
    w'.store.Balanced := by
  induction h with
  | refl => exact hb
  | perform h op ctx ih =>
    have hsound := h.sound hs
    exact hsound.balanced_trace ih (perform_trace op ctx hsound)

/-- Requests keep submissions enrolled. -/
theorem Steps.enrolled (h : w.Steps w') (hs : w.store.Sound) (he : w.store.Enrolled) :
    w'.store.Enrolled := by
  induction h with
  | refl => exact he
  | perform h op ctx ih =>
    have hsound := h.sound hs
    exact hsound.enrolled_trace ih (perform_trace op ctx hsound)

/-- Submissions that have judgings keep some. -/
theorem Steps.keepsOwners (h : w.Steps w') (hs : w.store.Sound) :
    w.store.KeepsOwners w'.store := by
  induction h with
  | refl => exact fun j hj => ⟨j, hj, rfl⟩
  | perform h op ctx ih =>
    have hsound := h.sound hs
    exact ih.trans (hsound.keepsOwners_trace (perform_trace op ctx hsound))

/-- **Stores are sound** that arise from supplied rows. -/
theorem Arises.sound (h : w.Arises) : w.store.Sound := by
  obtain ⟨rows, blobs, hw⟩ := h
  exact hw.sound Store.sound_seed

theorem Reachable.sound (h : w.Reachable) : w.store.Sound :=
  h.arises.sound

/-- Submissions of reachable stores are enrolled where they say. -/
theorem Reachable.enrolled (h : w.Reachable) : w.store.Enrolled := by
  obtain ⟨rows, blobs, hfree, hw⟩ := h
  exact hw.enrolled Store.sound_seed (Store.enrolled_seed hfree)

/-- **Reachable ledgers are balanced.** -/
theorem Reachable.balanced (h : w.Reachable) : w.store.Balanced := by
  obtain ⟨rows, blobs, -, hw⟩ := h
  exact hw.balanced Store.sound_seed Store.balanced_seed

/-! ## A small contest

Two submissions of one team to one problem. The first does not compile, the
second is accepted, and both are counted. They are then proposed for
rejudging; a judgehost claims the first of the candidates, and a second
rejudging is cancelled. -/

/-- The rows of the contest. -/
def contestRows : Seed where
  problems := [⟨1, "sum", 1, none, none, none, none, true⟩]
  languages := [⟨"c", "C", "script", 1, true⟩]
  executables := [⟨"script", "", ""⟩]
  testcases := [⟨1, 1, 1, 1, none, "", ""⟩]
  submissions :=
    [⟨1, 1, 1, 1, "c", ⟨0, false⟩, none, false, none⟩,
     ⟨2, 1, 1, 1, "c", ⟨0, false⟩, none, false, none⟩]

/-- The surroundings of its requests, without faults. -/
def contestContext : Context :=
  ⟨⟨0, false⟩, ⟨"script", "script"⟩, .none⟩

/-- The world after one more request. -/
def after {α : Type} (w : World) (op : Operation α) : World :=
  (op.perform contestContext w).world

theorem Reachable.after {α : Type} (h : w.Reachable) (op : Operation α) : (w.after op).Reachable :=
  h.steps (Steps.refl.perform op contestContext)

/-- Both submissions have been handed out to a judgehost. -/
def contestClaimed : World :=
  (((((seeded contestRows (.memory [])).after (.enqueue 1)).after (.enqueue 2)).after
    (.register "host")).after (.claimJudging "host")).after (.claimJudging "host")

/-- Both judgings have ended, and nothing is counted yet. -/
def contestJudged : World :=
  (contestClaimed.after (.reportCompilation "host" 1 false "")).after
    (.reportRuns "host" 2 [⟨1, .accepted, 0, 0, []⟩])

/-- Both judgings are counted. -/
def contestCounted : World :=
  (contestJudged.after (.judgingFinished 1)).after (.judgingFinished 2)

/-- Both submissions have candidates in an open rejudging, and another
rejudging is cancelled. -/
def contestRejudging : World :=
  ((((contestCounted.after (.createRejudging ⟨1, "", none⟩)).after
    (.batchRejudge { contestId := 1 } (some 1) false)).after (.claimJudging "host")).after
    (.createRejudging ⟨1, "", none⟩)).after (.cancelRejudging 2 none)

theorem reachable_contestClaimed : contestClaimed.Reachable := by
  have hfree : ∀ r ∈ contestRows.submissions, r.rejudgingId = none := by decide
  have hseeded : (seeded contestRows (.memory [])).Reachable := ⟨_, _, hfree, .refl⟩
  exact ((((hseeded.after _).after _).after _).after _).after _

theorem reachable_contestJudged : contestJudged.Reachable :=
  (reachable_contestClaimed.after _).after _

theorem reachable_contestCounted : contestCounted.Reachable :=
  (reachable_contestJudged.after _).after _

theorem reachable_contestRejudging : contestRejudging.Reachable :=
  ((((reachable_contestCounted.after _).after _).after _).after _).after _

end World

end JudgeQueue
