import JudgeQueue.Dispatch
import JudgeQueue.Proofs.Graded.Basic
/-!
# Grading — the testcases that are left

A judgehost is handed the testcases of a problem by rank and id. Those that
have no run yet are kept in this order, so what it is handed next is the first
of them, and once that has a run the others are left. As long as the runs do
not decide a judging there is a testcase to hand out.
-/

namespace JudgeQueue

namespace Testcase

/-- The order of grading, in which no two testcases are alike. -/
def Precedes (a b : Testcase) : Prop :=
  a.rank < b.rank ∨ a.rank = b.rank ∧ a.id < b.id

variable {a b : Testcase}

theorem before_iff : a.before b = true ↔ a.rank < b.rank ∨ a.rank = b.rank ∧ a.id ≤ b.id := by
  rw [before, Bool.or_eq_true, Bool.and_eq_true, decide_eq_true_iff, decide_eq_true_iff,
    decide_eq_true_iff]

theorem before_trans (a b c : Testcase) (hab : a.before b = true) (hbc : b.before c = true) :
    a.before c = true := by
  rw [before_iff] at *
  omega

theorem before_total (a b : Testcase) : (a.before b || b.before a) = true := by
  rw [Bool.or_eq_true, before_iff, before_iff]
  omega

/-- Testcases with different ids are in order strictly. -/
theorem precedes_of_before (h : a.before b = true) (hne : a.id ≠ b.id) : a.Precedes b := by
  rw [before_iff] at h
  unfold Precedes
  omega

end Testcase

namespace Store

/-- The testcases of a problem that have no run within a judging, in the order
of grading. -/
def missing (s : Store) (j : Judging) (problemId : Int) : List Testcase :=
  (s.testcasesOf problemId).filter fun t => !(s.runsOf j.id).any fun n => n.testcaseId = t.id

variable {s s' : Store} {j j' : Judging} {problemId : Int}

/-- **Testcases are listed in the order of grading.** -/
theorem pairwise_testcasesOf (s : Store) (problemId : Int) :
    (s.testcasesOf problemId).Pairwise Testcase.Precedes := by
  have hsorted : (s.testcasesOf problemId).Pairwise fun a b => a.before b = true :=
    List.pairwise_mergeSort Testcase.before_trans Testcase.before_total _
  have hne : (s.testcasesOf problemId).Pairwise fun a b => a.id ≠ b.id :=
    List.pairwise_map.mp (s.nodup_testcasesOf problemId)
  exact hsorted.imp₂ (fun _ _ => Testcase.precedes_of_before) hne

theorem pairwise_missing (s : Store) (j : Judging) (problemId : Int) :
    (s.missing j problemId).Pairwise Testcase.Precedes :=
  (s.pairwise_testcasesOf problemId).sublist List.filter_sublist

/-- What is left is left once. -/
theorem nodup_missing (s : Store) (j : Judging) (problemId : Int) :
    ((s.missing j problemId).map Testcase.id).Nodup :=
  (s.nodup_testcasesOf problemId).sublist (List.filter_sublist.map _)

theorem mem_missing {t : Testcase} :
    t ∈ s.missing j problemId ↔ t ∈ s.testcasesOf problemId ∧
      ∀ n ∈ s.runs, n.judgingId = j.id → n.testcaseId ≠ t.id := by
  rw [missing, List.mem_filter, Bool.not_eq_true', List.any_eq_false]
  simp only [mem_runsOf, decide_eq_true_iff, and_imp, ne_eq]

/-- No testcase is left exactly if all of them have been run. -/
theorem missing_eq_nil_iff {r : Submission} (hr : r ∈ s.submissions)
    (hsub : j.submissionId = r.id) : s.missing j r.problemId = [] ↔ s.AllRun j := by
  rw [allRun_iff hr hsub, List.eq_nil_iff_forall_not_mem]
  refine forall_congr' fun t => ?_
  rw [mem_missing]
  simp only [mem_runsOf, not_and, not_forall, not_not, exists_prop, and_assoc]

/-- **What is handed out next** is the first testcase that is left, unless a run
has failed and the judging is not graded in full. -/
theorem nextTestcase_eq (h : ¬ (j.fullTest = false ∧ s.Failed j)) :
    Dispatch.nextTestcase j.fullTest (s.testcasesOf problemId) (s.runsOf j.id) =
      (s.missing j problemId).head? := by
  have hgoes : ¬ (!j.fullTest && (s.runsOf j.id).any fun n => !n.verdict.isAccepted) = true := by
    rw [Bool.and_eq_true, Bool.not_eq_true', List.any_eq_true]
    rintro ⟨hpartial, n, hn, hfailed⟩
    refine h ⟨hpartial, failed_iff.mpr ⟨n, hn, ?_⟩⟩
    rwa [Bool.not_eq_true', ← Bool.not_eq_true, Verdict.isAccepted_iff] at hfailed
  rw [Dispatch.nextTestcase, if_neg hgoes, missing, List.head?_filter]

/-- A judging that is not decided has a testcase left, if it has any. -/
theorem missing_ne_nil {r : Submission} (hr : r ∈ s.submissions) (hsub : j.submissionId = r.id)
    (hany : s.testcasesOf r.problemId ≠ []) (h : ¬ s.IsDecided j) :
    s.missing j r.problemId ≠ [] := by
  rw [ne_eq, missing_eq_nil_iff hr hsub]
  intro hall
  obtain ⟨t, ht⟩ := List.exists_mem_of_ne_nil _ hany
  exact h (.inr ⟨⟨t, (isGradedOn_iff hr hsub).mpr ht⟩, hall⟩)

/-- **Once the first testcase has a run** the others are left. -/
theorem missing_of_cons {t : Testcase} {rest : List Testcase}
    (hmissing : s.missing j problemId = t :: rest)
    (htestcases : s'.testcasesOf problemId = s.testcasesOf problemId)
    (hruns : ∀ id : Int, (∃ n ∈ s'.runs, n.judgingId = j'.id ∧ n.testcaseId = id) ↔
      id = t.id ∨ ∃ n ∈ s.runs, n.judgingId = j.id ∧ n.testcaseId = id) :
    s'.missing j' problemId = rest := by
  -- another testcase that is left has another id
  have hother : t.id ∉ rest.map Testcase.id := by
    have hnodup := s.nodup_missing j problemId
    rw [hmissing] at hnodup
    exact (List.nodup_cons.mp hnodup).1
  have hleft : s'.missing j' problemId =
      (s.missing j problemId).filter fun u => u.id ≠ t.id := by
    rw [missing, missing, htestcases, List.filter_filter]
    refine List.filter_congr fun u _ => ?_
    have hu := hruns u.id
    rw [Bool.eq_iff_iff, Bool.and_eq_true, Bool.not_eq_true', Bool.not_eq_true', ← Bool.not_eq_true,
      ← Bool.not_eq_true, List.any_eq_true, List.any_eq_true]
    simp only [mem_runsOf, decide_eq_true_iff, and_assoc, hu, not_or, ne_eq]
  rw [hleft, hmissing, List.filter_cons_of_neg (by simp), List.filter_eq_self]
  exact fun u hu => decide_eq_true fun hid => hother (hid ▸ List.mem_map_of_mem hu)

end Store

end JudgeQueue
