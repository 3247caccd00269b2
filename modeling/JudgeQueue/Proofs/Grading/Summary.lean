import JudgeQueue.Proofs.Change.Basic
/-!
# Grading — the verdict of a complete judging

Runs have verdicts with a priority, and the strongest of them is one of
them. So a judging that its runs complete ends with a verdict of a run, and
never with the one that marks abandoned judgings.
-/

namespace JudgeQueue

namespace Verdict

variable {v w : Verdict} {vs : List Verdict}

theorem isRunVerdict_iff : v.isRunVerdict = true ↔ v ≠ .undefinedError := by
  cases v <;> decide

/-- The stronger of two verdicts is one of them. -/
theorem stronger_eq_or : v.stronger w = v ∨ v.stronger w = w := by
  unfold stronger
  split
  · split
    · exact .inr rfl
    · exact .inl rfl
  · exact .inr rfl
  · exact .inl rfl

/-- The strongest of some verdicts is one of them. -/
theorem foldl_stronger_mem : vs.foldl stronger v = v ∨ vs.foldl stronger v ∈ vs := by
  induction vs generalizing v with
  | nil => exact .inl rfl
  | cons w rest ih =>
    rw [List.foldl_cons]
    rcases ih (v := v.stronger w) with h | h
    · rw [h]
      rcases stronger_eq_or (v := v) (w := w) with hv | hw
      · exact .inl hv
      · rw [hw]
        exact .inr List.mem_cons_self
    · exact .inr (List.mem_cons_of_mem _ h)

/-- **What verdicts reduce to is the verdict of a run**, and one of them. -/
theorem mem_of_reduce (h : reduce vs = some v) : v ∈ vs ∧ v.isRunVerdict = true := by
  have hmem : v ∈ vs.filter isRunVerdict := by
    unfold reduce at h
    split at h
    · cases h
    · next w rest hvs =>
      rw [← Option.some.inj h, hvs]
      exact List.mem_cons.mpr foldl_stronger_mem
  exact List.mem_filter.mp hmem

/-- Run verdicts reduce to one as soon as there is one. -/
theorem reduce_isSome (hne : vs ≠ []) (h : ∀ v ∈ vs, v.isRunVerdict = true) :
    (reduce vs).isSome = true := by
  obtain ⟨v, rest, rfl⟩ := List.exists_cons_of_ne_nil hne
  rw [reduce, List.filter_eq_self.mpr h]
  rfl

end Verdict

/-- **Runs that complete a judging give it a result.** -/
theorem Summary.exists_finalVerdict {runs : List Run} {testcases : List Testcase} {fullTest : Bool}
    (h : (ofRuns runs testcases).isComplete fullTest testcases.length = true)
    (hruns : ∀ n ∈ runs, n.verdict.isRunVerdict = true) :
    ∃ v, (ofRuns runs testcases).finalVerdict = some v ∧ v ≠ .undefinedError := by
  have hsome : (ofRuns runs testcases).finalVerdict.isSome = true := by
    rw [isComplete, Bool.or_eq_true, Bool.and_eq_true, Bool.and_eq_true] at h
    rcases h with ⟨-, hany⟩ | ⟨hpos, hseen⟩
    · cases hv : (ofRuns runs testcases).finalVerdict with
      | none => simp [hv] at hany
      | some v => rfl
    · -- as many runs as testcases, of which there is one
      have hlen : 0 < runs.length := by
        have hle : testcases.length ≤ runs.length := of_decide_eq_true hseen
        have hlt : 0 < testcases.length := of_decide_eq_true hpos
        omega
      refine Verdict.reduce_isSome ?_ ?_
      · intro hnil
        rw [List.map_eq_nil_iff] at hnil
        simp [hnil] at hlen
      · intro v hv
        obtain ⟨n, hn, rfl⟩ := List.mem_map.mp hv
        exact hruns n hn
  obtain ⟨v, hv⟩ := Option.isSome_iff_exists.mp hsome
  exact ⟨v, hv, Verdict.isRunVerdict_iff.mp (Verdict.mem_of_reduce hv).2⟩

namespace Store

variable {s : Store} {id : Int} {now : Instant} {reports : List RunReport}

/-- Recording runs changes nothing but the runs, and moves the sequence on by as
many. -/
theorem exists_recordRuns (s : Store) (id : Int) (now : Instant) (reports : List RunReport) :
    ∃ runs, s.recordRuns id now reports =
      { s with runs := runs, lastRun := s.lastRun + reports.length } := by
  induction reports generalizing s with
  | nil => exact ⟨s.runs, by simp [recordRuns]⟩
  | cons r rest ih =>
    obtain ⟨runs, h⟩ := ih (s.insertRun (Grading.RunReport.toRun r id now)).2
    refine ⟨runs, ?_⟩
    change (s.insertRun _).2.recordRuns id now rest = _
    rw [h, List.length_cons, Int.natCast_succ, Int.add_comm (rest.length : Int) 1,
      ← Int.add_assoc]
    rfl

/-- Runs are recorded before or after a change that leaves them alone. -/
theorem recordRuns_comm {F : Store → Store}
    (hF : ∀ s new, ((F s).insertRun new).2 = F (s.insertRun new).2) (s : Store) (id : Int)
    (now : Instant) (reports : List RunReport) :
    (F s).recordRuns id now reports = F (s.recordRuns id now reports) := by
  induction reports generalizing s with
  | nil => rfl
  | cons r rest ih =>
    change ((F s).insertRun _).2.recordRuns id now rest =
      F ((s.insertRun _).2.recordRuns id now rest)
    rw [hF, ih]

/-- What does not read the runs is the same once runs have been recorded. -/
theorem recordRuns_congr {β : Type} (f : Store → β)
    (hf : ∀ runs last, f { s with runs := runs, lastRun := last } = f s) :
    f (s.recordRuns id now reports) = f s := by
  obtain ⟨runs, h⟩ := s.exists_recordRuns id now reports
  rw [h, hf]

/-- Recording runs and grading leave the judgehosts alone. -/
theorem judgehosts_grade (s : Store) (judgingId problemId : Int) (reports : List RunReport)
    (now : Instant) : (s.grade judgingId problemId reports now).judgehosts = s.judgehosts :=
  recordRuns_congr judgehosts fun _ _ => rfl

/-- They leave the submissions alone, -/
theorem submissions_grade (s : Store) (judgingId problemId : Int) (reports : List RunReport)
    (now : Instant) : (s.grade judgingId problemId reports now).submissions = s.submissions :=
  recordRuns_congr submissions fun _ _ => rfl

/-- and the testcases. -/
theorem testcasesOf_grade (s : Store) (judgingId problemId other : Int)
    (reports : List RunReport) (now : Instant) :
    (s.grade judgingId problemId reports now).testcasesOf other = s.testcasesOf other :=
  recordRuns_congr (testcasesOf · other) fun _ _ => rfl

/-- A run after a batch was there before, or is what came of a report. -/
theorem mem_runs_recordRuns {n : Run} (h : n ∈ (s.recordRuns id now reports).runs) :
    n ∈ s.runs ∨
      (∃ r ∈ reports, n.verdict = r.verdict) ∧ n.judgingId = id ∧ n.completeTime = now := by
  induction reports generalizing s with
  | nil => exact .inl h
  | cons r rest ih =>
    rcases ih (s := (s.insertRun (Grading.RunReport.toRun r id now)).2) h with
      hn | ⟨⟨p, hp, hv⟩, hrest⟩
    · rcases Table.mem_insert.mp hn with rfl | ⟨hn, -⟩
      · exact .inr ⟨⟨r, List.mem_cons_self, rfl⟩, rfl, rfl⟩
      · exact .inl hn
    · exact .inr ⟨⟨p, List.mem_cons_of_mem _ hp, hv⟩, hrest⟩

end Store

end JudgeQueue
