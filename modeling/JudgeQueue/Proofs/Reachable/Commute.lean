import JudgeQueue.Proofs.Calls.Commute
import JudgeQueue.Proofs.Calls.Reports
import JudgeQueue.Proofs.Reachable.Calls
/-!
# Reachable worlds — calls in either order

Two judgehosts that call at the same time are served one after the other, and it
does not matter in which order: a report of one and a report or a claim of the
other get the same answers, and leave the same store but for the ids of runs.
-/

namespace JudgeQueue

/-- A call leaves a blob store that refuses nothing. -/
theorem Call.takesAll_perform {β : Type} {w : World} (c : Call β) (hb : w.blobs.TakesAll)
    (hostname : String) (ctx : Context) :
    ((c.operation hostname).perform ctx w).world.blobs.TakesAll := by
  cases c with
  | claimJudging => exact hb.transact ctx _
  | claimTestcase judgingId => exact hb.transact ctx _
  | reportCompilation judgingId success output => exact hb.transact ctx _
  | reportRuns judgingId reports => exact hb.transact ctx _
  | fetchTestcase testcaseId kind =>
    change (Dispatch.fetchTestcase ctx w hostname testcaseId kind).world.blobs.TakesAll
    unfold Dispatch.fetchTestcase
    simp only
    split
    · exact hb.transact ctx _
    · exact hb.transact ctx _
    · split <;> exact hb.transact ctx _

namespace World

variable {w : World} {host₁ host₂ : String} {ctx₁ ctx₂ : Context}

/-- **Two requests commute**: each is answered the same before and after the
other one, and the stores that they leave differ in the ids of runs at most. -/
structure Commute {α β : Type} (w : World) (ctx₁ : Context) (a : Operation α) (ctx₂ : Context)
    (b : Operation β) : Prop where
  first : (a.perform ctx₁ (b.perform ctx₂ w).world).answer = (a.perform ctx₁ w).answer
  second : (b.perform ctx₂ (a.perform ctx₁ w).world).answer = (b.perform ctx₂ w).answer
  store : (b.perform ctx₂ (a.perform ctx₁ w).world).world.store.SameButRunIds
    (a.perform ctx₁ (b.perform ctx₂ w).world).world.store

/-- **A report is ruled on alike** after a call of another judgehost. -/
theorem Arises.report_after (h : w.Arises) (hb : w.blobs.TakesAll) (hne : host₁ ≠ host₂)
    (hfaults : ctx₁.faults = .none) (report : Report) (ctx₂ : Context) {β : Type}
    (c : Call β) :
    ((report.call.operation host₁).perform ctx₁
        ((c.operation host₂).perform ctx₂ w).world).answer =
        ((w.store.brief host₁).rule ctx₁.now report).answer ∧
      ((report.call.operation host₁).perform ctx₁
        ((c.operation host₂).perform ctx₂ w).world).world.store =
        ((w.store.brief host₁).rule ctx₁.now report).apply host₁ ctx₁.now
          ((c.operation host₂).perform ctx₂ w).world.store := by
  have hlater : ((c.operation host₂).perform ctx₂ w).world.Arises :=
    h.steps (Steps.refl.perform (c.operation host₂) ctx₂)
  have hruling := report.perform_eq hfaults (c.takesAll_perform hb host₂ ctx₂)
    hlater.graded.filed.run_le host₁
  rwa [h.brief_call ctx₂ hne c] at hruling

/-- Reports of two judgehosts commute. -/
theorem Arises.commute_report (h : w.Arises) (hb : w.blobs.TakesAll) (hne : host₁ ≠ host₂)
    (hfaults₁ : ctx₁.faults = .none) (hfaults₂ : ctx₂.faults = .none) (a b : Report) :
    w.Commute ctx₁ (a.call.operation host₁) ctx₂ (b.call.operation host₂) := by
  have hle := h.graded.filed.run_le
  obtain ⟨hanswer₁, hstore₁⟩ := a.perform_eq hfaults₁ hb hle host₁
  obtain ⟨hanswer₂, hstore₂⟩ := b.perform_eq hfaults₂ hb hle host₂
  obtain ⟨hlater₁, hafter₁⟩ := h.report_after hb hne hfaults₁ a ctx₂ b.call
  obtain ⟨hlater₂, hafter₂⟩ := h.report_after hb hne.symm hfaults₂ b ctx₁ a.call
  refine ⟨hlater₁.trans hanswer₁.symm, hlater₂.trans hanswer₂.symm, ?_⟩
  rw [hafter₁, hafter₂, hstore₁, hstore₂]
  exact (w.store.isAbout_rule host₁ ctx₁.now a).sameButRunIds
    (w.store.isAbout_rule host₂ ctx₂.now b) hne hle ctx₁.now ctx₂.now

/-- A report and a claim of another judgehost commute. -/
theorem Arises.commute_claim (h : w.Arises) (hb : w.blobs.TakesAll) (hne : host₁ ≠ host₂)
    (hfaults₁ : ctx₁.faults = .none) (a : Report) :
    w.Commute ctx₁ (a.call.operation host₁) ctx₂ (.claimJudging host₂) := by
  obtain ⟨hanswer, hstore⟩ := a.perform_eq hfaults₁ hb h.graded.filed.run_le host₁
  obtain ⟨hlater, hafter⟩ := h.report_after hb hne hfaults₁ a ctx₂ .claimJudging
  have habout := w.store.isAbout_rule host₁ ctx₁.now a
  generalize (w.store.brief host₁).rule ctx₁.now a = ruling at *
  have hworld : ((a.call.operation host₁).perform ctx₁ w).world =
      ⟨ruling.apply host₁ ctx₁.now w.store,
        ((a.call.operation host₁).perform ctx₁ w).world.blobs⟩ := by
    rw [← hstore]
  obtain ⟨hclaim, hclaimed⟩ := habout.perform_claimJudging hne ctx₁.now ctx₂
    ((a.call.operation host₁).perform ctx₁ w).world.blobs
  rw [← hworld] at hclaim hclaimed
  refine ⟨hlater.trans hanswer.symm, hclaim, ?_⟩
  rw [hclaimed]
  exact hafter ▸ .refl _

/-- **Calls of two judgehosts commute.** Whatever one of them reports of any
judging, and whatever the other one reports or claims, each at its own time: both
are answered alike in either order, and the stores differ in the ids of runs at
most. -/
theorem calls_commute (h : w.Arises) (hb : w.blobs.TakesAll) (hne : host₁ ≠ host₂)
    (hfaults₁ : ctx₁.faults = .none) (hfaults₂ : ctx₂.faults = .none) (a : Report) :
    (∀ b : Report,
      w.Commute ctx₁ (a.call.operation host₁) ctx₂ (b.call.operation host₂)) ∧
    w.Commute ctx₁ (a.call.operation host₁) ctx₂ (.claimJudging host₂) :=
  ⟨h.commute_report hb hne hfaults₁ hfaults₂ a, h.commute_claim hb hne hfaults₁ a⟩

/-- Two judgehosts end a judging each. Which of the runs is the first one depends
on the order, and nothing else does. -/
theorem commute_contestShared :
    ((contestShared.after (.reportRuns "host" 1 [⟨1, .accepted, 0, 0, []⟩])).after
        (.reportRuns "other" 2 [⟨1, .accepted, 0, 0, []⟩])).store.runs.rows.map
          (fun n => (n.id, n.judgingId)) = [(1, 1), (2, 2)] ∧
      ((contestShared.after (.reportRuns "other" 2 [⟨1, .accepted, 0, 0, []⟩])).after
        (.reportRuns "host" 1 [⟨1, .accepted, 0, 0, []⟩])).store.runs.rows.map
          (fun n => (n.id, n.judgingId)) = [(1, 2), (2, 1)] ∧
      contestShared.Commute contestContext (.reportRuns "host" 1 [⟨1, .accepted, 0, 0, []⟩])
        contestContext (.reportRuns "other" 2 [⟨1, .accepted, 0, 0, []⟩]) ∧
      contestShared.Commute contestContext (.reportRuns "host" 1 [⟨1, .accepted, 0, 0, []⟩])
        contestContext (.claimJudging "other") := by
  have hblobs : contestShared.blobs.TakesAll := by
    have hseeded : (seeded contestRows (.memory [])).blobs.TakesAll := Blobs.takesAll_memory []
    exact (((((hseeded.transact _ _).transact _ _).transact _ _).transact _ _).transact _
      _).transact _ _
  have hne : "host" ≠ "other" := by decide
  have hfaults : contestContext.faults = .none := rfl
  obtain ⟨hreports, hclaim⟩ := calls_commute arises_contestShared hblobs hne hfaults hfaults
    (.runs 1 [⟨1, .accepted, 0, 0, []⟩])
  exact ⟨by decide +kernel, by decide +kernel, hreports (.runs 2 [⟨1, .accepted, 0, 0, []⟩]),
    hclaim⟩

end World

end JudgeQueue
