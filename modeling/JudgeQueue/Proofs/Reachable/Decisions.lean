import JudgeQueue.Proofs.Calls.Refused
import JudgeQueue.Proofs.Course.Decisions
import JudgeQueue.Proofs.Reachable.Course
/-!
# Reachable worlds — decisions are final

A rejudging is decided once and an internal error closed once. From then on
the row stays as it is through every request, and each request that would
decide or close it again is refused.
-/

namespace JudgeQueue

/-- A request of any kind, with what it finds around it. -/
structure Request where
  {α : Type}
  op : Operation α
  ctx : Context

/-- A rejudging is in force as it was decided: its row is the one of its id,
and requests that name it are refused. -/
structure Rejudging.StandsIn (q : Rejudging) (w : World) : Prop where
  row : w.store.rejudgings.find? q.id = some q
  apply : ∀ operator, (Operation.applyRejudging q.id operator).IsRefused w
    (.conflict (.alreadyDecided q.id q.state))
  cancel : ∀ operator, (Operation.cancelRejudging q.id operator).IsRefused w
    (.conflict (.alreadyDecided q.id q.state))
  batch : ∀ selection fullTest, (Operation.batchRejudge selection (some q.id) fullTest).IsRefused w
    (.conflict (.alreadyDecided q.id q.state))

/-- An internal error stays as it was closed: its row is the one of its id,
and closing it again is refused. -/
structure InternalError.StandsIn (e : InternalError) (w : World) : Prop where
  row : w.store.internalErrors.find? e.id = some e
  resolve : ∀ status, status ≠ .opened → (Operation.resolveError e.id status).IsRefused w
    (.conflict (.alreadyClosed e.id e.status))

namespace World

variable {w w' : World}

/-! ## Runs -/

/-- The world after a request. -/
def next (w : World) (r : Request) : World :=
  (r.op.perform r.ctx w).world

/-- The world after some requests, one after another. -/
def run (w : World) (rs : List Request) : World :=
  rs.foldl next w

/-- How many of some requests bring about a condition of the store. -/
def timesBrought (p : Store → Bool) : World → List Request → Nat
  | _, [] => 0
  | w, r :: rest => (!p w.store && p (w.next r).store).toNat + timesBrought p (w.next r) rest

section Stable

-- `I` is what requests keep, and `p` what stays under them where `I` holds
variable {I : World → Prop} {p : Store → Bool} (hI : ∀ w r, I w → I (w.next r))
variable (hp : ∀ w r, I w → p w.store = true → p (w.next r).store = true)

include hI hp

theorem holds_run (hw : I w) (hbefore : p w.store = true) (rs : List Request) :
    p (w.run rs).store = true := by
  induction rs generalizing w with
  | nil => exact hbefore
  | cons r rest ih => exact ih (hI w r hw) (hp w r hw hbefore)

/-- **What stays once it holds** comes about at most once: if it holds after
the requests and did not before them. -/
theorem timesBrought_eq (hw : I w) (rs : List Request) :
    w.timesBrought p rs = (!p w.store && p (w.run rs).store).toNat := by
  induction rs generalizing w with
  | nil => cases hbefore : p w.store <;> simp [timesBrought, run, hbefore]
  | cons r rest ih =>
    have hrun : w.run (r :: rest) = (w.next r).run rest := rfl
    rw [timesBrought, ih (hI w r hw), hrun]
    cases hbefore : p w.store with
    | true => simp [hp w r hw hbefore]
    | false =>
      cases hafter : p (w.next r).store with
      | false => simp
      | true => simp [holds_run hI hp (hI w r hw) hafter rest]

end Stable

/-! ## Along requests -/

/-- Requests keep every rejudging and every internal error. -/
theorem Steps.retains (h : w.Steps w') (hs : w.store.OnCourse) : w.store.Retains w'.store := by
  induction h with
  | refl => exact .refl _
  | perform h op ctx ih =>
    exact ih.trans (Store.retains_trace (perform_trace op ctx (h.unfolds hs).2.sound))

/-- So their rows are there, and have followed their course. -/
theorem Steps.settles (h : w.Steps w') (hs : w.store.OnCourse) : w.store.Settles w'.store := by
  obtain ⟨⟨es, hunfolds⟩, -⟩ := h.unfolds hs
  exact hs.settles hunfolds (h.retains hs)

theorem Arises.next (h : w.Arises) (r : Request) : (w.next r).Arises :=
  h.steps (Steps.refl.perform r.op r.ctx)

theorem Arises.settles_next (h : w.Arises) (r : Request) : w.store.Settles (w.next r).store :=
  (Steps.refl.perform r.op r.ctx).settles h.onCourse

/-- A rejudging that has been decided stands in every later world. -/
theorem Steps.standsIn_rejudging (h : w.Steps w') (hs : w.store.OnCourse) {q : Rejudging}
    (hq : q ∈ w.store.rejudgings) (hdecided : q.applied ≠ none) : q.StandsIn w' := by
  have hrow := (h.settles hs).find?_rejudging hq hdecided
  have hmem := Table.mem_of_find? hrow
  have hclosed : q.isOpen = false := by
    rwa [Rejudging.isOpen, ← Bool.not_eq_true, Option.isNone_iff_eq_none]
  exact ⟨hrow, isRefused_applyRejudging hmem hclosed, isRefused_cancelRejudging hmem hclosed,
    isRefused_batchRejudge hmem hclosed⟩

/-- An internal error that has been closed stands in every later world. -/
theorem Steps.standsIn_internalError (h : w.Steps w') (hs : w.store.OnCourse) {e : InternalError}
    (he : e ∈ w.store.internalErrors) (hclosed : e.status ≠ .opened) : e.StandsIn w' := by
  have hrow := (h.settles hs).find?_closed he hclosed
  exact ⟨hrow, fun _ hclosing =>
    isRefused_resolveError (Table.mem_of_find? hrow) hclosed hclosing⟩

/-- **Decisions are final.** In every world that arises from supplied rows, a
rejudging that has been decided keeps its row through all later requests, which
are refused if they name it; so does an internal error that has been closed,
and of any internal error nothing but the status changes. Along every run of
requests each rejudging is decided at most once, and each internal error
closed at most once. -/
theorem decisions_stand (h : w.Arises) :
    (∀ q ∈ w.store.rejudgings, q.applied ≠ none → ∀ w', w.Steps w' → q.StandsIn w') ∧
    (∀ e ∈ w.store.internalErrors, ∀ w', w.Steps w' →
      (∃ status, w'.store.internalErrors.find? e.id = some { e with status }) ∧
        (e.status ≠ .opened → e.StandsIn w')) ∧
    ∀ (rs : List Request) (id : Int), w.timesBrought (Store.hasDecided id) rs ≤ 1 ∧
      w.timesBrought (Store.hasClosed id) rs ≤ 1 := by
  have hcourse := h.onCourse
  refine ⟨fun q hq hdecided w' hs => hs.standsIn_rejudging hcourse hq hdecided,
    fun e he w' hs => ⟨(hs.settles hcourse).find?_internalError he,
      fun hclosed => hs.standsIn_internalError hcourse he hclosed⟩, fun rs id => ⟨?_, ?_⟩⟩
  · rw [timesBrought_eq (fun _ r hw => Arises.next hw r)
      (fun _ r hw => (Arises.settles_next hw r).hasDecided) h rs]
    exact Bool.toNat_le _
  · rw [timesBrought_eq (fun _ r hw => Arises.next hw r)
      (fun _ r hw => (Arises.settles_next hw r).hasClosed) h rs]
    exact Bool.toNat_le _

/-- The small contest with a language that was reported, and whose report was
ignored. -/
def contestIgnored : World :=
  (contestRejudging.after (.reportError
    ⟨"", "", (DisableTarget.language "c").toValue, none, none⟩)).after (.resolveError 1 .ignored)

/-- In it the second rejudging stays cancelled and the report closed, even once
the first rejudging has been cancelled too, which happens once. -/
theorem stand_contestIgnored :
    contestIgnored.Arises ∧
    (∃ q ∈ contestIgnored.store.rejudgings, q.id = 2 ∧ q.applied = some false ∧
      q.StandsIn (contestIgnored.after (.cancelRejudging 1 none))) ∧
    (∃ e ∈ contestIgnored.store.internalErrors, e.id = 1 ∧ e.status = .ignored ∧
      e.StandsIn (contestIgnored.after (.cancelRejudging 1 none))) ∧
    contestIgnored.timesBrought (Store.hasDecided 1)
      (List.replicate 3 ⟨.cancelRejudging 1 none, contestContext⟩) ≤ 1 := by
  have harises : contestIgnored.Arises := ((reachable_contestRejudging.after _).after _).arises
  have hsteps : contestIgnored.Steps (contestIgnored.after (.cancelRejudging 1 none)) :=
    Steps.refl.perform _ _
  obtain ⟨hrejudgings, herrors, htimes⟩ := decisions_stand harises
  have hq : ∃ q ∈ contestIgnored.store.rejudgings.rows, q.id = 2 ∧ q.applied = some false := by
    decide +kernel
  have he : ∃ e ∈ contestIgnored.store.internalErrors.rows, e.id = 1 ∧ e.status = .ignored := by
    decide +kernel
  obtain ⟨q, hq, hqid, happlied⟩ := hq
  obtain ⟨e, he, heid, hstatus⟩ := he
  refine ⟨harises, ⟨q, hq, hqid, happlied, hrejudgings q hq (by simp [happlied]) _ hsteps⟩,
    ⟨e, he, heid, hstatus, (herrors e he _ hsteps).2 (by simp [hstatus])⟩, (htimes _ 1).1⟩

end World

end JudgeQueue
