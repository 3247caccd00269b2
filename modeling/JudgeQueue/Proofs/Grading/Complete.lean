import JudgeQueue.Proofs.Grading.Summary
import Mathlib.Data.List.Perm.Subperm
/-!
# Grading — when runs are enough

Whether a judging is complete is told by numbers: a verdict that all runs
reduce to, and as many runs as there are testcases. Where runs are of
different testcases, all of them known, the numbers say what they are meant
to: some run has failed, or every testcase has its run.
-/

namespace JudgeQueue

namespace Verdict

variable {v w : Verdict} {vs : List Verdict}

theorem isAccepted_iff : v.isAccepted = true ↔ v = .accepted :=
  decide_eq_true_iff

/-- Accepted is the weakest verdict of a run. -/
theorem stronger_eq_accepted_iff (hv : v.isRunVerdict = true) (hw : w.isRunVerdict = true) :
    v.stronger w = .accepted ↔ v = .accepted ∧ w = .accepted := by
  revert hv hw
  cases v <;> cases w <;> decide

theorem isRunVerdict_stronger (hv : v.isRunVerdict = true) (hw : w.isRunVerdict = true) :
    (v.stronger w).isRunVerdict = true := by
  rcases stronger_eq_or (v := v) (w := w) with h | h <;> rw [h] <;> assumption

theorem foldl_stronger_eq_accepted_iff (hv : v.isRunVerdict = true)
    (h : ∀ w ∈ vs, w.isRunVerdict = true) :
    vs.foldl stronger v = .accepted ↔ v = .accepted ∧ ∀ w ∈ vs, w = .accepted := by
  induction vs generalizing v with
  | nil => simp
  | cons w rest ih =>
    have hw : w.isRunVerdict = true := h w List.mem_cons_self
    have hrest : ∀ w ∈ rest, w.isRunVerdict = true := fun u hu => h u (List.mem_cons_of_mem _ hu)
    rw [List.foldl_cons, ih (isRunVerdict_stronger hv hw) hrest, stronger_eq_accepted_iff hv hw,
      List.forall_mem_cons, and_assoc]

/-- **Runs reduce to accepted only if each of them is.** -/
theorem reduce_eq_accepted_iff (hne : vs ≠ []) (h : ∀ v ∈ vs, v.isRunVerdict = true) :
    reduce vs = some .accepted ↔ ∀ v ∈ vs, v = .accepted := by
  obtain ⟨v, rest, rfl⟩ := List.exists_cons_of_ne_nil hne
  obtain ⟨hv, hrest⟩ := List.forall_mem_cons.mp h
  rw [reduce, List.filter_eq_self.mpr h, List.forall_mem_cons, Option.some.injEq,
    foldl_stronger_eq_accepted_iff hv hrest]

/-- Runs reduce to a failure as soon as one has failed. -/
theorem any_reduce_iff (h : ∀ v ∈ vs, v.isRunVerdict = true) :
    (reduce vs).any (fun v => !v.isAccepted) = true ↔ ∃ v ∈ vs, v ≠ .accepted := by
  cases vs with
  | nil => simp [reduce]
  | cons v rest =>
    have hiff := reduce_eq_accepted_iff (List.cons_ne_nil v rest) h
    obtain ⟨u, hu⟩ := Option.isSome_iff_exists.mp (reduce_isSome (List.cons_ne_nil v rest) h)
    rw [hu, Option.some.injEq] at hiff
    rw [hu, Option.any_some, Bool.not_eq_true', ← Bool.not_eq_true, isAccepted_iff, hiff]
    simp only [not_forall, exists_prop, ne_eq]

end Verdict

namespace Summary

/-- The runs are of testcases that are known, no two of one testcase, and
have verdicts that runs have. -/
structure Covers (runs : List Run) (testcases : List Testcase) : Prop where
  known : ∀ n ∈ runs, ∃ t ∈ testcases, t.id = n.testcaseId
  nodup : (runs.map Run.testcaseId).Nodup
  nodup_testcases : (testcases.map Testcase.id).Nodup
  graded : ∀ n ∈ runs, n.verdict.isRunVerdict = true

variable {runs : List Run} {testcases : List Testcase}

/-- **Runs are as many as testcases if every testcase has one.** -/
theorem Covers.length_le_iff (h : Covers runs testcases) :
    testcases.length ≤ runs.length ↔ ∀ t ∈ testcases, ∃ n ∈ runs, n.testcaseId = t.id := by
  have hsub : runs.map Run.testcaseId ⊆ testcases.map Testcase.id := by
    intro id hid
    obtain ⟨n, hn, rfl⟩ := List.mem_map.mp hid
    obtain ⟨t, ht, hid⟩ := h.known n hn
    exact List.mem_map.mpr ⟨t, ht, hid⟩
  have hall : testcases.map Testcase.id ⊆ runs.map Run.testcaseId ↔
      ∀ t ∈ testcases, ∃ n ∈ runs, n.testcaseId = t.id := by
    simp only [List.subset_def, List.mem_map, forall_exists_index, and_imp,
      forall_apply_eq_imp_iff₂]
  rw [← hall, ← List.length_map (f := Run.testcaseId), ← List.length_map (f := Testcase.id)]
  constructor
  · intro hle
    exact ((h.nodup.subperm hsub).perm_of_length_le hle).symm.subset
  · intro hsub'
    exact (h.nodup_testcases.subperm hsub').length_le

/-- **What completes a judging**: a run that failed, unless it is graded in
full, or a run of every testcase. -/
theorem Covers.isComplete_iff (h : Covers runs testcases) {fullTest : Bool} :
    (ofRuns runs testcases).isComplete fullTest testcases.length = true ↔
      (fullTest = false ∧ ∃ n ∈ runs, n.verdict ≠ .accepted) ∨
        (testcases ≠ [] ∧ ∀ t ∈ testcases, ∃ n ∈ runs, n.testcaseId = t.id) := by
  have hverdicts : ∀ v ∈ runs.map Run.verdict, v.isRunVerdict = true :=
    List.forall_mem_map.mpr h.graded
  have hfailed : ((ofRuns runs testcases).finalVerdict.any fun v => !v.isAccepted) = true ↔
      ∃ n ∈ runs, n.verdict ≠ .accepted := by
    refine (Verdict.any_reduce_iff hverdicts).trans ?_
    simp only [List.mem_map, exists_exists_and_eq_and]
  rw [isComplete, Bool.or_eq_true, Bool.and_eq_true, Bool.and_eq_true, Bool.not_eq_true', hfailed,
    decide_eq_true_iff, decide_eq_true_iff, List.length_pos_iff]
  exact or_congr_right (and_congr_right fun _ => h.length_le_iff)

/-- Runs that fall short of the testcases do not complete a judging that is graded
in full. -/
theorem not_isComplete_of_lt (h : runs.length < testcases.length) {fullTest : Bool}
    (hfull : fullTest = true) :
    ¬ (ofRuns runs testcases).isComplete fullTest testcases.length = true := by
  have hseen : (ofRuns runs testcases).testcasesSeen = runs.length := rfl
  rw [isComplete, hfull, hseen, decide_eq_false (Nat.not_le.mpr h), Bool.and_false]
  exact Bool.false_ne_true

end Summary

end JudgeQueue
