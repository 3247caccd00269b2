import JudgeQueue.Proofs.Reachable.Worker
/-!
# Reachable worlds — handing out and ending

Two rules decide about the work of a judgehost: one says what to hand out, the
other when to end the judging. They agree. As long as the judging is held there
is a testcase to hand out, always the first of those that are left, and once it
has ended there is none.
-/

namespace JudgeQueue

namespace World

variable {w w₁ : World} {hostname : String} {j j₁ : Judging} {r : Submission} {p : Problem}

/-! ## What the turns come to -/

/-- The turns are taken one after another. -/
theorem turns_work (scripts : DefaultScripts) (hostname : String) (judgingId : Int)
    (turns : List Turn) (w : World) :
    (work scripts hostname judgingId turns w).1.map Prod.snd =
      turns.take (work scripts hostname judgingId turns w).1.length := by
  induction turns generalizing w with
  | nil => rfl
  | cons u rest ih =>
    rw [work]
    simp only
    split
    · rw [List.map_cons, List.length_cons, List.take_succ_cons, ih]
    · rfl

/-- A run has failed after some turns if it had before them, or if one of them
reported it. -/
theorem Worked.failed_iff {done : List (Testcase × Turn)}
    (h : w.Worked hostname j r p done w₁ j₁) :
    w₁.store.Failed j₁ ↔ w.store.Failed j ∨ ∃ e ∈ done, e.2.verdict ≠ .accepted := by
  have hfailed : ∀ (s : Store) (i : Judging),
      s.Failed i ↔ ∃ id v, s.HasRun i.id id v ∧ v ≠ .accepted := by
    intro s i
    constructor
    · rintro ⟨n, hn, hid, hne⟩
      exact ⟨n.testcaseId, n.verdict, ⟨n, hn, hid, rfl, rfl⟩, hne⟩
    · rintro ⟨id, v, ⟨n, hn, hid, -, rfl⟩, hne⟩
      exact ⟨n, hn, hid, hne⟩
  rw [hfailed, hfailed]
  constructor
  · rintro ⟨id, v, hrun, hne⟩
    rcases (h.hasRun_iff id v).mp hrun with hrun | ⟨e, he, -, rfl⟩
    · exact .inl ⟨id, v, hrun, hne⟩
    · exact .inr ⟨e, he, hne⟩
  · rintro (⟨id, v, hrun, hne⟩ | ⟨e, he, hne⟩)
    · exact ⟨id, v, (h.hasRun_iff id v).mpr (.inl hrun), hne⟩
    · exact ⟨e.1.id, e.2.verdict, (h.hasRun_iff _ _).mpr (.inr ⟨e, he, rfl, rfl⟩), hne⟩

/-- **The judging has ended** exactly if one of the turns has failed and it is
not graded in full, or all its testcases have been run. -/
theorem Worked.finalized_iff {done : List (Testcase × Turn)} (h : w.Assigned hostname j r p)
    (hheld : j.isClaimedBy hostname = true) (hdone : w.Worked hostname j r p done w₁ j₁) :
    j₁.lifecycle = .finalized ↔
      j.fullTest = false ∧ (∃ e ∈ done, e.2.verdict ≠ .accepted) ∨ w₁.store.AllRun j₁ := by
  have hgraded : ∃ t, w₁.store.IsGradedOn j₁ t := by
    obtain ⟨t, ht⟩ := List.exists_mem_of_ne_nil _ hdone.assigned.testcases
    exact ⟨t, (Store.isGradedOn_iff hdone.assigned.submission hdone.assigned.submissionId).mpr ht⟩
  rw [hdone.assigned.finalized_iff hdone.stands, Store.IsDecided, hdone.failed_iff,
    hdone.fullTest_eq, and_iff_right hgraded]
  refine or_congr_left (and_congr_right fun hpartial => or_iff_right fun hfailed => ?_)
  exact h.not_isDecided hheld (.inl ⟨hpartial, hfailed⟩)

/-! ## The end of the work -/

/-- What a judgehost has done with a judging that it held, and what has become
of the judging. Testcases were handed out in the order of grading, each of them
while it had no run. Unless the judging is graded in full, nothing was handed
out after a run that failed. -/
structure Finishes (w : World) (hostname : String) (j : Judging) (problemId : Int)
    (turns : List Turn) (done : List (Testcase × Turn)) (w' : World) (j' : Judging) : Prop where
  taken : done.map Prod.snd = turns.take done.length
  missing : ∀ e ∈ done, e.1 ∈ w.store.missing j problemId
  ordered : (done.map Prod.fst).Pairwise Testcase.Precedes
  length_le : done.length ≤ (w.store.missing j problemId).length
  accepted : j.fullTest = false → ∀ e ∈ done.dropLast, e.2.verdict = .accepted
  ended_iff : j'.lifecycle = .finalized ↔
    j.fullTest = false ∧ (∃ e ∈ done, e.2.verdict ≠ .accepted) ∨ w'.store.AllRun j'
  /-- The turns were over, or else the judging has ended. -/
  ended_or : j'.lifecycle = .finalized ∨
    done.length = turns.length ∧ turns.length < (w.store.missing j problemId).length
  idle : j'.lifecycle = .finalized → ∀ ctx : Context, ctx.faults = .none →
    ((Operation.claimTestcase hostname j.id).perform ctx w').answer = .ok none

/-- Turns finish a judging that is held, if output of runs can be kept. -/
theorem Assigned.finishes (h : w.Assigned hostname j r p) (hheld : j.isClaimedBy hostname = true)
    (hputs : w.blobs.TakesAll) (scripts : DefaultScripts) (turns : List Turn) :
    ∃ j' ∈ (work scripts hostname j.id turns w).2.store.judgings, j'.id = j.id ∧
      w.Finishes hostname j r.problemId turns (work scripts hostname j.id turns w).1
        (work scripts hostname j.id turns w).2 j' := by
  obtain ⟨j', hdone, hover⟩ := h.worked hputs (.inl hheld) scripts turns
  have hturns := turns_work scripts hostname j.id turns w
  generalize (work scripts hostname j.id turns w).1 = done at *
  generalize (work scripts hostname j.id turns w).2 = w' at *
  have hsub : done.map Prod.fst <+: w.store.missing j r.problemId :=
    ⟨_, hdone.missing.symm⟩
  have hlength : done.length ≤ (w.store.missing j r.problemId).length := by
    simpa using hsub.length_le
  have hended := Worked.finalized_iff h hheld hdone
  refine ⟨j', hdone.assigned.judging, hdone.id_eq, hturns, ?missing, ?ordered, hlength,
    hdone.accepted, hended, ?ended_or, ?idle⟩
  case missing =>
    exact fun e he => hsub.subset (List.mem_map_of_mem he)
  case ordered =>
    exact (w.store.pairwise_missing j r.problemId).sublist hsub.sublist
  case ended_or =>
    by_cases hfin : j'.lifecycle = .finalized
    · exact .inl hfin
    · refine .inr ⟨hover hfin, ?_⟩
      by_contra hlt
      -- every testcase that was left has been handed out
      have hall : w'.store.missing j' r.problemId = [] := by
        have hcount := congrArg List.length hdone.missing
        rw [List.length_append, List.length_map, hover hfin] at hcount
        exact List.length_eq_zero_iff.mp (by omega)
      rw [Store.missing_eq_nil_iff hdone.assigned.submission hdone.assigned.submissionId] at hall
      exact hfin (hended.mpr (.inr hall))
  case idle =>
    intro hfin ctx hfaults
    rw [← hdone.id_eq, hdone.assigned.perform_claimTestcase_of_finalized hfin ctx hfaults]

/-- **Handing out and ending agree.** A judgehost that holds a judging and asks
for a testcase is handed the first that has no run. As long as output of runs
can be kept, it is handed one after another as it reports them, in the order of
grading, until the judging has ended: with the first run that fails, if it is not
graded in full, or else with the last testcase. Then it is handed none. -/
theorem work_finishes (h : w.Assigned hostname j r p) (hheld : j.isClaimedBy hostname = true) :
    (∀ ctx : Context, ctx.faults = .none →
      ∃ t ∈ w.store.missing j r.problemId,
        ((Operation.claimTestcase hostname j.id).perform ctx w).answer = .ok (some t) ∧
        ∀ u ∈ w.store.missing j r.problemId, u ≠ t → t.Precedes u) ∧
    (w.blobs.TakesAll → ∀ (scripts : DefaultScripts) (turns : List Turn),
      ∃ j' ∈ (work scripts hostname j.id turns w).2.store.judgings, j'.id = j.id ∧
        w.Finishes hostname j r.problemId turns (work scripts hostname j.id turns w).1
          (work scripts hostname j.id turns w).2 j') := by
  refine ⟨fun ctx hfaults => ?_, h.finishes hheld⟩
  obtain ⟨t, left, hmissing⟩ := List.exists_cons_of_ne_nil
    (Store.missing_ne_nil h.submission h.submissionId h.testcases (h.not_isDecided hheld))
  have hordered := w.store.pairwise_missing j r.problemId
  rw [h.perform_claimTestcase hheld ctx hfaults]
  rw [hmissing] at hordered ⊢
  refine ⟨t, List.mem_cons_self, rfl, fun u hu hne => ?_⟩
  exact (List.pairwise_cons.mp hordered).1 u (List.mem_of_ne_of_mem hne hu)

/-- In the small exam the judgehost still holds a judging, of which it is handed
the second testcase first. -/
theorem finishes_examEnded :
    ∃ j r p, examEnded.Assigned "host" j r p ∧ j.isClaimedBy "host" = true ∧ j.id = 3 ∧
      (∀ ctx : Context, ctx.faults = .none → ∃ t,
        ((Operation.claimTestcase "host" j.id).perform ctx examEnded).answer = .ok (some t) ∧
        t.id = 2) ∧
      examEnded.blobs.TakesAll ∧
      ∀ (scripts : DefaultScripts) (turns : List Turn),
        ∃ j' ∈ (work scripts "host" j.id turns examEnded).2.store.judgings, j'.id = j.id ∧
          examEnded.Finishes "host" j r.problemId turns
            (work scripts "host" j.id turns examEnded).1
            (work scripts "host" j.id turns examEnded).2 j' := by
  have hhost : ∃ h ∈ examEnded.store.judgehosts.rows, h.hostname = "host" ∧ h.active = true := by
    decide +kernel
  have hjudging : ∃ j ∈ examEnded.store.judgings.rows,
      j.id = 3 ∧ j.submissionId = 3 ∧ j.isClaimedBy "host" = true := by decide +kernel
  have hsubmission : ∃ r ∈ examEnded.store.submissions.rows, r.id = 3 ∧ r.problemId = 1 := by
    decide +kernel
  have hproblem : ∃ p ∈ examEnded.store.problems.rows, p.id = 1 ∧ p.allowJudge = true := by
    decide +kernel
  have htestcase : ∃ t ∈ examEnded.store.testcases.rows,
      t.problemId = 1 ∧ t.id = 2 ∧ t.rank = 1 := by decide +kernel
  have hleast : ∀ t ∈ examEnded.store.testcases.rows,
      t.problemId = 1 → ¬ (t.rank < 1 ∨ t.rank = 1 ∧ t.id < 2) := by decide +kernel
  have hruns : ∀ n ∈ examEnded.store.runs.rows, n.judgingId ≠ 3 := by decide +kernel
  have hputs : examEnded.blobs.TakesAll := Blobs.takesAll_of_count? (by decide +kernel)
  obtain ⟨j, hj, hid, hsub, hheld⟩ := hjudging
  obtain ⟨r, hr, hrid, hrproblem⟩ := hsubmission
  obtain ⟨p, hp, hpid, hallow⟩ := hproblem
  obtain ⟨u, hu, huproblem, huid, hurank⟩ := htestcase
  have hlisted : u ∈ examEnded.store.testcasesOf r.problemId :=
    Store.mem_testcasesOf.mpr ⟨hu, huproblem.trans hrproblem.symm⟩
  have hassigned : examEnded.Assigned "host" j r p :=
    ⟨reachable_examEnded.arises, hhost, hj, hr, hsub.trans hrid.symm, hp,
      hpid.trans hrproblem.symm, hallow, List.ne_nil_of_mem hlisted⟩
  obtain ⟨hnext, hfinishes⟩ := work_finishes hassigned hheld
  refine ⟨j, r, p, hassigned, hheld, hid, fun ctx hfaults => ?_, hputs, hfinishes hputs⟩
  obtain ⟨t, ht, hanswer, hfirst⟩ := hnext ctx hfaults
  refine ⟨t, hanswer, ?_⟩
  have hleft : u ∈ examEnded.store.missing j r.problemId :=
    Store.mem_missing.mpr ⟨hlisted, fun n hn hjudged => absurd (hjudged.trans hid) (hruns n hn)⟩
  by_cases heq : u = t
  · exact heq ▸ huid
  · -- no testcase of the problem goes before the second
    have hprecedes := hfirst u hleft heq
    rw [Testcase.Precedes, hurank, huid] at hprecedes
    obtain ⟨hmem, htproblem⟩ := Store.mem_testcasesOf.mp (Store.mem_missing.mp ht).1
    exact absurd hprecedes (hleast t hmem (htproblem.trans hrproblem))

end World

end JudgeQueue
