import JudgeQueue.Proofs.Course.Change
/-!
# The course of the store — decisions

Rejudgings and internal errors are never removed. With what may become of
their rows this makes decisions final: a row that has been decided or closed
is there as it is after every further change. What holds of a store for good
once it holds comes about at most once along changes.
-/

namespace JudgeQueue

/-! ## Rows that are never removed -/

namespace Table

variable {α κ : Type} [Keyed α κ] [Ord κ] {t t₁ t' : Table α}

/-- Every key of a table is one of another, too. -/
def Retains (t t' : Table α) : Prop :=
  ∀ a ∈ t, ∃ b ∈ t', key b = key a

theorem Retains.refl (t : Table α) : t.Retains t :=
  fun a ha => ⟨a, ha, rfl⟩

theorem Retains.trans (h : t.Retains t₁) (h' : t₁.Retains t') : t.Retains t' := by
  intro a ha
  obtain ⟨b, hb, hba⟩ := h a ha
  obtain ⟨c, hc, hcb⟩ := h' b hb
  exact ⟨c, hc, hcb.trans hba⟩

/-- A row takes the place of the one with its key at most. -/
theorem retains_insert [Std.TransOrd κ] [Std.LawfulEqOrd κ] [DecidableEq κ] (t : Table α) (r : α) :
    t.Retains (t.insert r) := by
  intro a ha
  by_cases hkey : key a = key r
  · exact ⟨r, mem_insert.mpr (.inl rfl), hkey.symm⟩
  · exact ⟨a, mem_insert.mpr (.inr ⟨ha, hkey⟩), rfl⟩

theorem retains_modify [DecidableEq κ] (t : Table α) (k : κ) {f : α → α}
    (hf : ∀ a, key (f a) = key a) : t.Retains (t.modify k f hf) := by
  intro a ha
  by_cases hkey : key a = k
  · exact ⟨f a, mem_modify.mpr (.inl ⟨a, ha, hkey, rfl⟩), hf a⟩
  · exact ⟨a, mem_modify.mpr (.inr ⟨ha, hkey⟩), rfl⟩

/-- **What becomes of a row** under an id that is retained: the row that it
was is related to the one that it is. -/
theorem Grows.exists_of_retains {α : Type} [Keyed α Int] {R : α → α → Prop} [Lineage R]
    {t t' : Table α} {n n' : Int} (h : t.Grows R n t' n') (hretains : t.Retains t') {a : α}
    (ha : a ∈ t) (hle : key a ≤ n) : ∃ b ∈ t', R a b := by
  obtain ⟨b, hb, hba⟩ := hretains a ha
  obtain ⟨c, hc, hcb⟩ := h.old b hb (hba ▸ hle)
  have hca : c = a := eq_of_key_eq hc ha ((Lineage.key_eq hcb).trans hba)
  exact ⟨b, hb, hca ▸ hcb⟩

end Table

namespace Store

variable {now : Instant} {s s₁ s' : Store} {es : List Event}

/-- The rejudgings and the internal errors of a store are those of another,
too. -/
structure Retains (s s' : Store) : Prop where
  rejudgings : s.rejudgings.Retains s'.rejudgings
  internalErrors : s.internalErrors.Retains s'.internalErrors

theorem Retains.refl (s : Store) : s.Retains s :=
  ⟨.refl _, .refl _⟩

theorem Retains.trans (h : s.Retains s₁) (h' : s₁.Retains s') : s.Retains s' :=
  ⟨h.rejudgings.trans h'.rejudgings, h.internalErrors.trans h'.internalErrors⟩

theorem retains_of_eq (hrej : s'.rejudgings = s.rejudgings)
    (herr : s'.internalErrors = s.internalErrors) : s.Retains s' := by
  constructor
  · rw [hrej]
    exact .refl _
  · rw [herr]
    exact .refl _

/-- Submissions that are rejudged leave both kinds of rows alone. -/
theorem retains_rejudged {ds : List StatisticsDelta} (h : Rejudged s ds s') : s.Retains s' := by
  induction h with
  | none => exact .refl _
  | @next s _ r _ _ fullTest _ _ _ _ _ ih =>
    have hstep : s.Retains (s.rejudge r.id fullTest) := retains_of_eq rfl rfl
    exact hstep.trans ih

theorem frame_recordRuns (s : Store) (id : Int) (now : Instant) (reports : List RunReport) :
    (s.recordRuns id now reports).rejudgings = s.rejudgings ∧
      (s.recordRuns id now reports).internalErrors = s.internalErrors := by
  rw [s.recordRuns_frame id now reports]
  exact ⟨rfl, rfl⟩

/-- **No change removes a rejudging or an internal error.** -/
theorem retains_change (hc : Change now s es s') : s.Retains s' := by
  cases hc with
  | raise new => exact ⟨.refl _, Table.retains_insert _ _⟩
  | close => exact ⟨.refl _, Table.retains_modify _ _ (InternalError.key_marked _)⟩
  | openRejudging new => exact ⟨Table.retains_insert _ _, .refl _⟩
  | apply | cancel => exact ⟨Table.retains_modify _ _ fun q => q.key_decide _ _ _, .refl _⟩
  | @grade j _ _ reports _ _ _ _ _ _ _ _ =>
    have hframe := s.frame_recordRuns j.id now reports
    exact retains_of_eq hframe.1 hframe.2
  | rejudge hr _ => exact (retains_rejudged hr).trans (retains_of_eq rfl rfl)
  | _ => exact retains_of_eq rfl rfl

theorem retains_trace (ht : Trace now s es s') : s.Retains s' := by
  induction ht with
  | refl => exact .refl _
  | step hc _ ih => exact (retains_change hc).trans ih

/-! ## Decisions -/

/-- Whether the rejudging of an id has been decided. -/
def hasDecided (id : Int) (s : Store) : Bool :=
  (s.rejudgings.find? id).any fun q => !q.isOpen

/-- Whether the internal error of an id has been closed. -/
def hasClosed (id : Int) (s : Store) : Bool :=
  (s.internalErrors.find? id).any fun e => e.status ≠ .opened

/-- What has happened to the rejudgings and the internal errors of a store
once it has become another. -/
structure Settles (s s' : Store) : Prop where
  rejudgings : ∀ q ∈ s.rejudgings, ∃ q' ∈ s'.rejudgings, Rejudging.Follows q q'
  internalErrors : ∀ e ∈ s.internalErrors, ∃ e' ∈ s'.internalErrors, InternalError.Follows e e'

/-- Every row is still there, and has followed its course. -/
theorem OnCourse.settles (h : s.OnCourse) (hu : s.Unfolds es s') (hr : s.Retains s') :
    s.Settles s' where
  rejudgings q hq :=
    hu.rejudgings.exists_of_retains hr.rejudgings hq (h.sound.numbered.rejudging_le q hq)
  internalErrors e he :=
    hu.internalErrors.exists_of_retains hr.internalErrors he (h.error_le e he)

/-- **A rejudging that has been decided** is there as it is. -/
theorem Settles.find?_rejudging (h : s.Settles s') {q : Rejudging} (hq : q ∈ s.rejudgings)
    (hdecided : q.applied ≠ none) : s'.rejudgings.find? q.id = some q := by
  obtain ⟨q', hq', hfollows⟩ := h.rejudgings q hq
  rw [hfollows.decided hdecided] at hq'
  exact Table.find?_key hq'

/-- **An internal error** is there with what was recorded of it, whatever its
status. -/
theorem Settles.find?_internalError (h : s.Settles s') {e : InternalError}
    (he : e ∈ s.internalErrors) :
    ∃ status, s'.internalErrors.find? e.id = some { e with status } := by
  obtain ⟨e', he', hfollows⟩ := h.internalErrors e he
  refine ⟨e'.status, ?_⟩
  rw [← hfollows.same, Table.find?_eq_some_iff]
  exact ⟨he', (Lineage.key_eq hfollows).symm⟩

/-- **One that has been closed** is there as it is. -/
theorem Settles.find?_closed (h : s.Settles s') {e : InternalError} (he : e ∈ s.internalErrors)
    (hclosed : e.status ≠ .opened) : s'.internalErrors.find? e.id = some e := by
  obtain ⟨e', he', hfollows⟩ := h.internalErrors e he
  rw [hfollows.closed hclosed] at he'
  exact Table.find?_key he'

theorem hasDecided_iff {id : Int} :
    s.hasDecided id = true ↔ ∃ q ∈ s.rejudgings, q.id = id ∧ q.applied ≠ none := by
  have hopen : ∀ q : Rejudging, (!q.isOpen) = true ↔ q.applied ≠ none := by
    intro q
    rw [Rejudging.isOpen, Bool.not_eq_true', ← Bool.not_eq_true, Option.isNone_iff_eq_none]
  rw [hasDecided, Option.any_eq_true]
  constructor
  · rintro ⟨q, hfind, hclosed⟩
    exact ⟨q, Table.mem_of_find? hfind, Table.key_of_find? hfind, (hopen q).mp hclosed⟩
  · rintro ⟨q, hq, rfl, hdecided⟩
    exact ⟨q, Table.find?_key hq, (hopen q).mpr hdecided⟩

theorem hasClosed_iff {id : Int} :
    s.hasClosed id = true ↔ ∃ e ∈ s.internalErrors, e.id = id ∧ e.status ≠ .opened := by
  rw [hasClosed, Option.any_eq_true]
  constructor
  · rintro ⟨e, hfind, hclosed⟩
    exact ⟨e, Table.mem_of_find? hfind, Table.key_of_find? hfind, of_decide_eq_true hclosed⟩
  · rintro ⟨e, he, rfl, hclosed⟩
    exact ⟨e, Table.find?_key he, decide_eq_true hclosed⟩

/-- Decided is decided. -/
theorem Settles.hasDecided (h : s.Settles s') {id : Int} (hdecided : s.hasDecided id = true) :
    s'.hasDecided id = true := by
  obtain ⟨q, hq, rfl, happlied⟩ := hasDecided_iff.mp hdecided
  have hfind := h.find?_rejudging hq happlied
  exact hasDecided_iff.mpr ⟨q, Table.mem_of_find? hfind, rfl, happlied⟩

/-- Closed is closed. -/
theorem Settles.hasClosed (h : s.Settles s') {id : Int} (hclosed : s.hasClosed id = true) :
    s'.hasClosed id = true := by
  obtain ⟨e, he, rfl, hstatus⟩ := hasClosed_iff.mp hclosed
  have hfind := h.find?_closed he hstatus
  exact hasClosed_iff.mpr ⟨e, Table.mem_of_find? hfind, rfl, hstatus⟩

end Store

end JudgeQueue
