import JudgeQueue.Proofs.Reachable.Course
/-!
# Reachable worlds — the journal of events

The events that requests have published, from the first request on, are an
exact account of the judgings and internal errors: of each judging that has
been handed out there is one begin, of each that has ended one end after it,
of each internal error one report, and there are no others. Every begin
belongs to the answer of a claim, so no judging is handed out twice.
-/

namespace JudgeQueue

open Transaction

/-- The judging that an event hands out. -/
def Event.begins? : Event → Option Int
  | judgingBegun judgingId _ _ => some judgingId
  | _ => none

/-- The payload that a request is answered with, if it is a claim and hands a
judging out. -/
def Operation.payload? {α : Type} : Operation α → Except Error α → Option Payload
  | claimJudging _, .ok payload => payload
  | _, _ => none

namespace Store

/-- A log is an exact account of the rows: what it tells of an id is what has
happened to the row of that id, in order, and nothing if there is none. -/
structure ToldBy (s : Store) (log : List Event) : Prop where
  queued : ∀ j ∈ s.judgings, j.lifecycle = .queued → log.filter (Event.tellsOf j.id) = []
  claimed : ∀ j ∈ s.judgings, j.lifecycle = .claimed → ∃ hostname, j.server = some hostname ∧
    log.filter (Event.tellsOf j.id) = [.judgingBegun j.id j.submissionId hostname]
  finalized : ∀ j ∈ s.judgings, j.lifecycle = .finalized →
    ∃ hostname, j.server = some hostname ∧ log.filter (Event.tellsOf j.id) =
      [.judgingBegun j.id j.submissionId hostname, .judgingFinished j.id j.submissionId]
  noJudging : ∀ id, (∀ j ∈ s.judgings, j.id ≠ id) → log.filter (Event.tellsOf id) = []
  internalError : ∀ e ∈ s.internalErrors, log.filter (Event.raises e.id) =
    [.internalErrorRaised e.id e.judgingId e.target.kind]
  noInternalError : ∀ id, (∀ e ∈ s.internalErrors, e.id ≠ id) → log.filter (Event.raises id) = []

/-- The store is on its course, and a log tells what its rows tell. -/
structure Logged (s : Store) (log : List Event) : Prop where
  course : s.OnCourse
  fits : s.Fits
  judgings : ∀ id, s.judgings.tale Judging.story id = log.filter (Event.tellsOf id)
  internalErrors : ∀ id,
    s.internalErrors.tale (fun e => [e.raised]) id = log.filter (Event.raises id)

variable {now : Instant} {s s' : Store} {log es : List Event}

/-- **What a trace publishes** goes on with the log. -/
theorem Logged.trace (h : s.Logged log) (ht : Trace now s es s') : s'.Logged (log ++ es) := by
  obtain ⟨hunfolds, hcourse⟩ := h.course.unfolds_trace ht
  refine ⟨hcourse, hunfolds.fits h.fits, fun id => ?_, fun id => ?_⟩
  · rw [hunfolds.judgings.told, h.judgings, List.filter_append]
  · rw [hunfolds.raised h.fits, h.internalErrors, List.filter_append]

/-- A judging that has been handed out has begun on its judgehost. -/
theorem exists_begun {j : Judging} (hserver : j.server ≠ none) :
    ∃ hostname, j.server = some hostname ∧
      j.begun = .judgingBegun j.id j.submissionId hostname := by
  obtain ⟨hostname, hhost⟩ := Option.ne_none_iff_exists'.mp hserver
  refine ⟨hostname, hhost, ?_⟩
  rw [Judging.begun, hhost, Option.getD_some]

/-- **Row by row** the log is an exact account. -/
theorem Logged.toldBy (h : s.Logged log) : s.ToldBy log := by
  have hstory : ∀ j ∈ s.judgings, log.filter (Event.tellsOf j.id) = j.story := by
    intro j hj
    rw [← h.judgings]
    exact Table.tale_of_mem hj
  refine ⟨?queued, ?claimed, ?finalized, ?noJudging, ?internalError, ?noInternalError⟩
  case queued =>
    intro j hj hl
    rw [hstory j hj, Judging.story_of_queued hl]
  case claimed =>
    intro j hj hl
    obtain ⟨hostname, hhost, hbegun⟩ := exists_begun ((h.course.shaped j hj).held hl).1
    exact ⟨hostname, hhost, by rw [hstory j hj, Judging.story_of_claimed hl, hbegun]⟩
  case finalized =>
    intro j hj hl
    obtain ⟨hostname, hhost, hbegun⟩ := exists_begun ((h.course.shaped j hj).ended hl).1
    refine ⟨hostname, hhost, ?_⟩
    rw [hstory j hj, Judging.story_of_finalized hl, hbegun, Judging.finished]
  case noJudging =>
    intro id hnone
    rw [← h.judgings]
    exact Table.tale_of_missing hnone
  case internalError =>
    intro e he
    rw [← h.internalErrors]
    exact Table.tale_of_mem he
  case noInternalError =>
    intro id hnone
    rw [← h.internalErrors]
    exact Table.tale_of_missing hnone

/-- A judging begins once in its story. -/
theorem length_begins_story (j : Judging) : (j.story.filterMap Event.begins?).length ≤ 1 := by
  rw [Judging.story]
  cases j.lifecycle with
  | queued => exact Nat.zero_le 1
  | claimed | finalized => exact Nat.le_refl 1

/-- **No judging begins twice** in a log. -/
theorem Logged.nodup_begins (h : s.Logged log) : (log.filterMap Event.begins?).Nodup := by
  rw [List.nodup_iff_count_le_one]
  intro id
  have hcount : (log.filterMap Event.begins?).count id =
      ((log.filter (Event.tellsOf id)).filterMap Event.begins?).length := by
    rw [List.count_eq_length_filter, List.filter_filterMap, List.filterMap_filter]
    congr 2
    funext event
    cases event with
    | judgingBegun judgingId submissionId hostname =>
      by_cases hid : judgingId = id <;> simp [Event.begins?, Event.tellsOf, hid]
    | judgingFinished => simp [Event.begins?]
    | internalErrorRaised => simp [Event.begins?]
  rw [hcount, ← h.judgings, Table.tale]
  cases s.judgings.find? id with
  | none => exact Nat.zero_le 1
  | some j => exact length_begins_story j

end Store

namespace Operation

variable {α : Type} {op : Operation α} {ctx : Context} {w : World}

/-- A request that is no claim hands nothing out. -/
theorem payload?_of_not_isClaim (h : ¬ op.IsClaim) (answer : Except Error α) :
    op.payload? answer = none := by
  cases op with
  | claimJudging hostname => exact absurd trivial h
  | _ => rfl

/-- **The begins that a request tells of** are those of the payload that it is
answered with. -/
theorem begins_perform (op : Operation α) (ctx : Context) (w : World) :
    (op.perform ctx w).events.filterMap Event.begins? =
      (op.payload? (op.perform ctx w).answer).toList.map fun p => p.judging.id := by
  by_cases hclaim : op.IsClaim
  · cases op with
    | claimJudging hostname =>
      have hwithin := Dispatch.within_claimJudging (E := [.handsOut]) List.mem_cons_self
        ctx.scripts (w.store.enabledTargets + 1) hostname ctx.now
      rcases transact_within hwithin ctx w with
        ⟨payload, hanswer, raised, hraised, hes⟩ | ⟨-, hnone, hrollback⟩
      · have hsilent : raised.filterMap Event.begins? = [] := by
          rw [List.filterMap_eq_nil_iff]
          intro event hevent
          obtain ⟨_, _, _, rfl⟩ := hraised event hevent
          rfl
        rw [perform, hanswer, hes, List.filterMap_append, hsilent]
        cases payload <;> rfl
      · rw [perform, hnone]
        cases hanswer : (transact ctx w (Dispatch.claimJudging ctx.scripts
            (w.store.enabledTargets + 1) hostname ctx.now)).answer with
        | ok payload => exact absurd (hrollback payload hanswer) id
        | error e => rfl
    | _ => exact hclaim.elim
  · rw [payload?_of_not_isClaim hclaim, Option.toList_none, List.map_nil,
      List.filterMap_eq_nil_iff]
    intro event hevent
    cases event with
    | judgingBegun =>
      exact absurd (isClaim_of_effect (mem_effects_of_event hevent rfl)) hclaim
    | judgingFinished => rfl
    | internalErrorRaised => rfl

end Operation

namespace World

/-- Requests lead to the world from supplied rows; these are the notifications
that they have sent and the payloads that they have answered with, the first
one first. The numbers of the problems that are supplied fit in 64 bits, as
all numbers do that are stored. -/
inductive Journal : World → List Notification → List Payload → Prop
  | seeded {rows : Seed} (blobs : Blobs) (hfits : ∀ p ∈ rows.problems, isInt64 p.id = true) :
      Journal (seeded rows blobs) [] []
  | perform {α : Type} {w : World} {log : List Notification} {payloads : List Payload}
      (h : Journal w log payloads) (op : Operation α) (ctx : Context) :
      Journal (op.perform ctx w).world
        (log ++ Event.publish (op.perform ctx w).events ctx.now)
        (payloads ++ (op.payload? (op.perform ctx w).answer).toList)

variable {w : World} {log : List Notification} {payloads : List Payload}

/-- Publishing changes no event. -/
theorem event_publish (es : List Event) (now : Instant) :
    (Event.publish es now).map Notification.event = es := by
  rw [Event.publish, List.map_map]
  exact List.map_id es

/-- **Along requests** the log tells what the rows tell, and its begins are
those of the payloads. -/
theorem Journal.logged (h : w.Journal log payloads) :
    w.store.Logged (log.map Notification.event) ∧
      (log.map Notification.event).filterMap Event.begins? =
        payloads.map fun p => p.judging.id := by
  induction h with
  | @seeded rows blobs hfits =>
    refine ⟨⟨onCourse_seed, fun p hp => ?_, fun id => ?_, fun id => ?_⟩, rfl⟩
    · rcases Table.mem_foldl_insert hp with hmem | hmem
      · exact hfits p hmem
      · exact absurd hmem Table.not_mem_empty
    · exact Table.tale_of_missing fun _ hj => absurd hj Table.not_mem_empty
    · exact Table.tale_of_missing fun _ he => absurd he Table.not_mem_empty
  | @perform α w log payloads _ op ctx ih =>
    obtain ⟨hlogged, hbegins⟩ := ih
    rw [List.map_append, event_publish]
    refine ⟨hlogged.trace (perform_trace op ctx hlogged.course.sound), ?_⟩
    rw [List.filterMap_append, List.map_append, hbegins, op.begins_perform]

/-- **The journal is exact.** What requests have published tells of each
judging of the store that it has begun if it is not queued, with its submission
and its judgehost, and after that that it has ended if it has; of each internal
error that it was raised, with its judging and the kind of its target; and of
nothing else. No judging is handed out twice. -/
theorem journal_exact (h : w.Journal log payloads) :
    w.store.ToldBy (log.map Notification.event) ∧
      (payloads.map fun p => p.judging.id).Nodup := by
  obtain ⟨hlogged, hbegins⟩ := h.logged
  refine ⟨hlogged.toldBy, ?_⟩
  rw [← hbegins]
  exact hlogged.nodup_begins

/-- In the small contest three judgings are handed out, the last one a
candidate, and the journal tells of each in order. -/
theorem journal_contestRejudging :
    ∃ log payloads, contestRejudging.Journal log payloads ∧
      (payloads.map fun p => p.judging.id) = [1, 2, 3] ∧
      (log.map Notification.event).filter (Event.tellsOf 2) =
        [.judgingBegun 2 2 "host", .judgingFinished 2 2] ∧
      contestRejudging.store.ToldBy (log.map Notification.event) ∧
      (payloads.map fun p => p.judging.id).Nodup := by
  have hfits : ∀ p ∈ contestRows.problems, isInt64 p.id = true := by decide
  have hseeded : (seeded contestRows (.memory [])).Journal [] [] := .seeded _ hfits
  have hclaimed := ((((hseeded.perform (.enqueue 1) contestContext).perform (.enqueue 2)
    contestContext).perform (.register "host") contestContext).perform (.claimJudging "host")
    contestContext).perform (.claimJudging "host") contestContext
  have hcounted := (((hclaimed.perform (.reportCompilation "host" 1 false "")
    contestContext).perform (.reportRuns "host" 2 [⟨1, .accepted, 0, 0, []⟩])
    contestContext).perform (.judgingFinished 1) contestContext).perform (.judgingFinished 2)
    contestContext
  have hrejudging := ((((hcounted.perform (.createRejudging ⟨1, "", none⟩)
    contestContext).perform (.batchRejudge { contestId := 1 } (some 1) false)
    contestContext).perform (.claimJudging "host") contestContext).perform
    (.createRejudging ⟨1, "", none⟩) contestContext).perform (.cancelRejudging 2 none)
    contestContext
  obtain ⟨htold, hnodup⟩ := journal_exact hrejudging
  exact ⟨_, _, hrejudging, by decide +kernel, by decide +kernel, htold, hnodup⟩

end World

end JudgeQueue
