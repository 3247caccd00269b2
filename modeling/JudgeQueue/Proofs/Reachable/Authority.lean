import JudgeQueue.Proofs.Reachable.Basic
/-!
# Reachable worlds — the judging in force

Once a submission has been judged, one of its judgings is in force for good,
though not always the same one. It is waited for, worked on, or has come to a
result: an attempt that was abandoned is never the one in force.
-/

namespace JudgeQueue

namespace World

/-- **One authoritative judging.** A submission that has had a judging has
just one active judging after any further requests, and that one is queued,
claimed, or has ended with a result. -/
theorem exists_unique_active {w w' : World} (h : w.Reachable) (hsteps : w.Steps w') {j : Judging}
    (hj : j ∈ w.store.judgings) :
    ∃ a ∈ w'.store.judgings, a.submissionId = j.submissionId ∧ a.active = true ∧
      (a.lifecycle = .queued ∨ a.lifecycle = .claimed ∨
        a.lifecycle = .finalized ∧ a.HasResult) ∧
      ∀ b ∈ w'.store.judgings, b.submissionId = j.submissionId → b.active = true → b = a := by
  have hs' : w'.store.Sound := hsteps.sound h.sound
  obtain ⟨i, hi, hsub⟩ := hsteps.keepsOwners h.sound j hj
  obtain ⟨a, ha, hai, hact⟩ := hs'.authority.exists_active i hi
  have haj : a.submissionId = j.submissionId := hai.trans hsub
  refine ⟨a, ha, haj, hact, ?_, fun b hb hbj hbact => ?_⟩
  · cases hl : a.lifecycle with
    | queued => exact .inl rfl
    | claimed => exact .inr (.inl rfl)
    | finalized => exact .inr (.inr ⟨rfl, hs'.hasResult_of_active ha hact hl⟩)
  · exact hs'.authority.active_eq b hb a ha (hbj.trans haj.symm) hbact hact

/-- The first submission of the small contest keeps one active judging while
candidates for it come and go. -/
theorem active_contestRejudging :
    contestCounted.Reachable ∧ contestCounted.Steps contestRejudging ∧
      ∃ j ∈ contestCounted.store.judgings, j.submissionId = 1 ∧
        ∃ a ∈ contestRejudging.store.judgings, a.submissionId = 1 ∧ a.active = true ∧
          ∀ b ∈ contestRejudging.store.judgings, b.submissionId = 1 → b.active = true → b = a := by
  have hsteps : contestCounted.Steps contestRejudging :=
    ((((Steps.refl.perform _ _).perform _ _).perform _ _).perform _ _).perform _ _
  have hexists : ∃ j ∈ contestCounted.store.judgings.rows, j.submissionId = 1 := by
    decide +kernel
  obtain ⟨j, hj, hsub⟩ := hexists
  obtain ⟨a, ha, haj, hact, -, hunique⟩ :=
    exists_unique_active reachable_contestCounted hsteps hj
  rw [hsub] at haj hunique
  exact ⟨reachable_contestCounted, hsteps, j, hj, hsub, a, ha, haj, hact, hunique⟩

end World

end JudgeQueue
