import JudgeQueue.Proofs.Calls.Refusal
import JudgeQueue.Proofs.Reachable.Verdicts
/-!
# Reachable worlds — calls of judgehosts

No judgehost gets at the work of another one. Whatever it asks for or reports,
the desks of the others stay as they are, and what it asks of a judging that it
does not hold comes to nothing.
-/

namespace JudgeQueue

namespace World

variable {w : World} {hostname other : String}

/-- Registering leaves other desks alone. -/
theorem Arises.desk_register (h : w.Arises) (ctx : Context) (hne : other ≠ hostname) :
    ((Operation.register hostname).perform ctx w).world.store.desk other = w.store.desk other :=
  transact_events (P := fun _ s => s.desk other = w.store.desk other)
    (Dispatch.commits_register_desk h.sound hne.symm ctx.now) rfl

/-- All calls that a judgehost makes after that leave alone what the reports of
others go by. -/
theorem Arises.brief_call (h : w.Arises) (ctx : Context) (hne : other ≠ hostname) {β : Type}
    (c : Call β) :
    ((c.operation hostname).perform ctx w).world.store.brief other = w.store.brief other := by
  have htouch := Store.brief_touchJudgehost (s := w.store) hne.symm ctx.now
  cases c with
  | claimJudging =>
    refine transact_events (P := fun _ s => s.brief other = w.store.brief other)
      ((Dispatch.commits_claimJudging hostname ctx.scripts _ ctx.now).mono ?_) rfl
    exact fun _ _ _ hspares => (hspares.brief other hne.symm).trans htouch
  | claimTestcase judgingId =>
    refine transact_events (P := fun _ s => s.brief other = w.store.brief other)
      ((Dispatch.commits_claimTestcase hostname judgingId ctx.now).mono ?_) rfl
    rintro _ _ _ rfl
    exact htouch
  | fetchTestcase testcaseId kind =>
    rcases store_fetchTestcase hostname testcaseId kind with hsame | htouched
    · exact congrArg (Store.brief · other) hsame
    · exact (congrArg (Store.brief · other) htouched).trans htouch
  | reportCompilation judgingId success output =>
    refine transact_events (P := fun _ s => s.brief other = w.store.brief other)
      ((Dispatch.commits_reportCompilation hostname judgingId success output ctx.now).mono ?_) rfl
    rintro _ _ _ (rfl | ⟨j, hj, hheld, rfl⟩)
    · exact htouch
    · exact (Store.brief_compile hj hheld hne.symm success output ctx.now).trans htouch
  | reportRuns judgingId reports =>
    refine transact_events (P := fun _ s => s.brief other = w.store.brief other)
      ((Grading.commits_reportRuns hostname judgingId reports ctx.now).mono ?_) rfl
    rintro _ _ _ (rfl | ⟨j, hj, hheld, problemId, recorded, rfl⟩)
    · exact htouch
    · have hle : ∀ n ∈ (w.store.touchJudgehost hostname ctx.now).runs,
          n.id ≤ (w.store.touchJudgehost hostname ctx.now).lastRun := h.graded.filed.run_le
      exact (Store.brief_grade hj hheld hne.symm hle problemId recorded ctx.now).trans htouch

/-- **Judgehosts keep to their own desks.** No call of a judgehost, and no
registration, changes the row of another one, the judgings that this one holds
or their runs. One that is not registered, or is switched off, or that asks
about a judging that it does not hold, is turned away. -/
theorem calls_apart (h : w.Arises) (hostname : String) (ctx : Context) :
    (∀ other, other ≠ hostname →
      ((Operation.register hostname).perform ctx w).world.store.desk other = w.store.desk other) ∧
    ∀ (β : Type) (c : Call β),
      (∀ other, other ≠ hostname →
        ((c.operation hostname).perform ctx w).world.store.desk other = w.store.desk other) ∧
      (¬ w.store.Serves hostname c →
        ((c.operation hostname).perform ctx w).TurnedAway w hostname ctx.now) :=
  ⟨fun _ hne => h.desk_register ctx hne, fun _ c =>
    ⟨fun _ hne => congrArg Brief.desk (h.brief_call ctx hne c), fun hserves =>
      c.turnedAway hserves ctx⟩⟩

/-- In the small contest two judgehosts hold a judging each. -/
def contestShared : World :=
  ((((((seeded contestRows (.memory [])).after (.enqueue 1)).after (.enqueue 2)).after
    (.register "host")).after (.register "other")).after (.claimJudging "host")).after
    (.claimJudging "other")

theorem arises_contestShared : contestShared.Arises := by
  have hseeded : (seeded contestRows (.memory [])).Steps (seeded contestRows (.memory [])) := .refl
  exact ⟨_, _, (((((hseeded.perform _ _).perform _ _).perform _ _).perform _ _).perform _
    _).perform _ _⟩

/-- One of them restarts and loses its judging. The other one has its own, which
the first one cannot end. -/
theorem apart_contestShared :
    contestShared.Arises ∧
      (contestShared.store.desk "other").work.map (fun entry => entry.1.id) = [2] ∧
      (contestShared.store.desk "host").work.map (fun entry => entry.1.id) = [1] ∧
      ((contestShared.after (.register "host")).store.desk "host").work = [] ∧
      (contestShared.after (.register "host")).store.desk "other" =
        contestShared.store.desk "other" ∧
      (contestShared.after (.reportCompilation "host" 1 false "")).store.desk "other" =
        contestShared.store.desk "other" ∧
      ((Operation.reportCompilation "host" 2 false "").perform contestContext
        contestShared).TurnedAway contestShared "host" contestContext.now := by
  have hother : (contestShared.store.desk "other").work.map (fun entry => entry.1.id) = [2] := by
    decide +kernel
  have hhost : (contestShared.store.desk "host").work.map (fun entry => entry.1.id) = [1] := by
    decide +kernel
  have hlost : ((contestShared.after (.register "host")).store.desk "host").work = [] := by
    decide +kernel
  have hfree : ∀ j ∈ contestShared.store.judgings.rows, j.id = 2 →
      j.isClaimedBy "host" = false := by decide +kernel
  have hserves : ¬ contestShared.store.Serves "host" (.reportCompilation 2 false "") := by
    rintro ⟨-, hheld⟩
    obtain ⟨j, hj, hid, hclaimed⟩ := hheld 2 rfl
    rw [hfree j hj hid] at hclaimed
    cases hclaimed
  obtain ⟨hregister, hcalls⟩ := calls_apart arises_contestShared "host" contestContext
  exact ⟨arises_contestShared, hother, hhost, hlost, hregister "other" (by decide),
    (hcalls Judging (.reportCompilation 1 false "")).1 "other" (by decide),
    (hcalls Judging (.reportCompilation 2 false "")).2 hserves⟩

end World

end JudgeQueue
