import JudgeQueue.Proofs.Grading.Batch
import Mathlib.Data.List.Perm.Subperm
/-!
# Grading — the verdict of any runs

Verdicts reduce to the one among them with the smallest priority, which no two
verdicts share, so what they reduce to is decided by which verdicts occur:
neither their order nor their number matters, and more of them only make it
stronger. A summary inherits this. It does not tell in which order the runs
were recorded, its verdict never gets weaker as runs are added, and a judging
that its runs complete stays complete.
-/

namespace JudgeQueue

namespace Verdict

variable {v w : Verdict} {vs ws : List Verdict}

/-- One of some verdicts that has a priority, where none of them has a smaller
one. -/
def IsStrongest (v : Verdict) (vs : List Verdict) : Prop :=
  v ∈ vs ∧ ∃ p, v.priority = some p ∧ ∀ w ∈ vs, ∀ q, w.priority = some q → p ≤ q

/-! ## Priorities -/

/-- **No two verdicts have one priority.** -/
theorem eq_of_priority_eq {p : Nat} (hv : v.priority = some p) (hw : w.priority = some p) :
    v = w := by
  have heq : v.priority = w.priority := hv.trans hw.symm
  revert heq
  cases v <;> cases w <;> decide

/-- Nothing is weaker than accepted. -/
theorem eq_accepted_of_outranks (h : Verdict.accepted.Outranks w) : w = .accepted := by
  obtain ⟨p, q, hp, hq, hle⟩ := h
  cases hp
  cases w <;> cases hq <;> first | rfl | omega

/-- Of a failure and of what outranks it neither is accepted. -/
theorem Outranks.ne_accepted (h : v.Outranks w) (hw : w ≠ .accepted) : v ≠ .accepted := by
  rintro rfl
  exact hw (eq_accepted_of_outranks h)

theorem Outranks.antisymm (h : v.Outranks w) (h' : w.Outranks v) : v = w := by
  obtain ⟨p, q, hp, hq, hle⟩ := h
  obtain ⟨q', p', hq', hp', hle'⟩ := h'
  cases hp.symm.trans hp'
  cases hq.symm.trans hq'
  exact eq_of_priority_eq hp (Nat.le_antisymm hle hle' ▸ hq)

theorem isStrongest_iff :
    v.IsStrongest vs ↔ v ∈ vs ∧ v.isRunVerdict = true ∧
      ∀ w ∈ vs, w.isRunVerdict = true → v.Outranks w := by
  refine and_congr_right fun _ => ⟨?_, ?_⟩
  · rintro ⟨p, hp, hall⟩
    refine ⟨Option.isSome_iff_exists.mpr ⟨p, hp⟩, fun w hw hrun => ?_⟩
    obtain ⟨q, hq⟩ := Option.isSome_iff_exists.mp hrun
    exact ⟨p, q, hp, hq, hall w hw q hq⟩
  · rintro ⟨hrun, hall⟩
    obtain ⟨p, hp⟩ := Option.isSome_iff_exists.mp hrun
    refine ⟨p, hp, fun w hw q hq => ?_⟩
    obtain ⟨p', q', hp', hq', hle⟩ := hall w hw (Option.isSome_iff_exists.mpr ⟨q, hq⟩)
    cases hp.symm.trans hp'
    cases hq.symm.trans hq'
    exact hle

/-- The strongest verdict is one. -/
theorem IsStrongest.eq (hv : v.IsStrongest vs) (hw : w.IsStrongest vs) : v = w := by
  obtain ⟨hv, hvrun, hvall⟩ := isStrongest_iff.mp hv
  obtain ⟨hw, hwrun, hwall⟩ := isStrongest_iff.mp hw
  exact (hvall w hw hwrun).antisymm (hwall v hv hvrun)

/-! ## What verdicts reduce to -/

/-- Verdicts without a priority do not count. -/
theorem reduce_filter_isRunVerdict : reduce (vs.filter isRunVerdict) = reduce vs := by
  simp only [reduce, List.filter_filter, Bool.and_self]

theorem isStrongest_of_reduce (h : reduce vs = some v) : v.IsStrongest vs := by
  obtain ⟨hmem, hrun⟩ := mem_of_reduce h
  rw [← reduce_filter_isRunVerdict] at h
  have hall := (outranks_reduce (fun w hw => (List.mem_filter.mp hw).2) h).2
  exact isStrongest_iff.mpr ⟨hmem, hrun, fun w hw hwrun => hall w (List.mem_filter.mpr ⟨hw, hwrun⟩)⟩

/-- **Verdicts reduce to none** exactly if none of them has a priority. -/
theorem reduce_eq_none_iff : reduce vs = none ↔ ∀ v ∈ vs, v.priority = none := by
  have hnil : reduce vs = none ↔ vs.filter isRunVerdict = [] := by
    unfold reduce
    split
    · next h => simp [h]
    · next h => simp [h]
  rw [hnil, List.filter_eq_nil_iff]
  simp only [isRunVerdict, Option.isSome_iff_ne_none, ne_eq, not_not]

/-- **Verdicts reduce to the strongest of them**, and to no other. -/
theorem reduce_eq_some_iff : reduce vs = some v ↔ v.IsStrongest vs := by
  constructor
  · exact isStrongest_of_reduce
  · intro h
    cases hr : reduce vs with
    | some w => rw [(isStrongest_of_reduce hr).eq h]
    | none =>
      obtain ⟨hmem, p, hp, -⟩ := h
      rw [reduce_eq_none_iff.mp hr v hmem] at hp
      cases hp

/-- **Which verdicts occur** decides what they reduce to. -/
theorem reduce_congr (h : ∀ v, v ∈ ws ↔ v ∈ vs) : reduce ws = reduce vs := by
  refine Option.ext fun v => ?_
  simp only [reduce_eq_some_iff, IsStrongest, h]

/-- Abandoned judgings do not count. -/
theorem reduce_filter_ne_undefinedError :
    reduce (vs.filter fun v => v ≠ .undefinedError) = reduce vs := by
  refine Eq.trans ?_ reduce_filter_isRunVerdict
  congr 1
  refine List.filter_congr fun v _ => ?_
  rw [Bool.eq_iff_iff, isRunVerdict_iff, decide_eq_true_iff]

/-- Where a verdict has a priority, some verdict that outranks it comes out. -/
theorem exists_reduce_of_mem (hmem : v ∈ vs) (hrun : v.isRunVerdict = true) :
    ∃ w, reduce vs = some w ∧ w.Outranks v := by
  cases hr : reduce vs with
  | none =>
    rw [isRunVerdict, reduce_eq_none_iff.mp hr v hmem] at hrun
    cases hrun
  | some w =>
    obtain ⟨-, -, hall⟩ := isStrongest_iff.mp (reduce_eq_some_iff.mp hr)
    exact ⟨w, rfl, hall v hmem hrun⟩

/-- **More verdicts** reduce to one that is as strong at least. -/
theorem exists_reduce_of_subset (hsub : vs ⊆ ws) (h : reduce vs = some v) :
    ∃ w, reduce ws = some w ∧ w.Outranks v := by
  obtain ⟨hmem, hrun⟩ := mem_of_reduce h
  exact exists_reduce_of_mem (hsub hmem) hrun

/-! ## Two lists -/

/-- The strongest verdict of one list is the strongest of two if it outranks what
the other reduces to. -/
theorem IsStrongest.append (h : v.IsStrongest vs) (hws : ∀ w, reduce ws = some w → v.Outranks w) :
    v.IsStrongest (vs ++ ws) := by
  obtain ⟨hmem, hrun, hall⟩ := isStrongest_iff.mp h
  refine isStrongest_iff.mpr ⟨List.mem_append_left _ hmem, hrun, fun u hu hurun => ?_⟩
  rcases List.mem_append.mp hu with hu | hu
  · exact hall u hu hurun
  · obtain ⟨w, hw, hwu⟩ := exists_reduce_of_mem hu hurun
    exact (hws w hw).trans hwu

theorem reduce_append_comm : reduce (vs ++ ws) = reduce (ws ++ vs) :=
  reduce_congr fun v => by rw [List.mem_append, List.mem_append, or_comm]

/-- **Two lists together** reduce to the stronger of what each reduces to. -/
theorem reduce_append : reduce (vs ++ ws) = (reduce vs).merge stronger (reduce ws) := by
  cases hv : reduce vs with
  | none =>
    rw [Option.merge_none_left, reduce_append_comm]
    cases hw : reduce ws with
    | none =>
      rw [reduce_eq_none_iff] at hv hw ⊢
      exact List.forall_mem_append.mpr ⟨hw, hv⟩
    | some w =>
      refine reduce_eq_some_iff.mpr ((reduce_eq_some_iff.mp hw).append fun v h => ?_)
      rw [hv] at h
      cases h
  | some v =>
    have hv' := reduce_eq_some_iff.mp hv
    cases hw : reduce ws with
    | none =>
      rw [Option.merge_none_right]
      refine reduce_eq_some_iff.mpr (hv'.append fun w h => ?_)
      rw [hw] at h
      cases h
    | some w =>
      have hw' := reduce_eq_some_iff.mp hw
      rw [Option.merge_some_some]
      obtain ⟨hleft, hright⟩ := outranks_stronger (mem_of_reduce hv).2 (mem_of_reduce hw).2
      rcases stronger_eq_or (v := v) (w := w) with h | h <;> rw [h] at hleft hright ⊢
      · refine reduce_eq_some_iff.mpr (hv'.append fun u hu => ?_)
        rwa [← Option.some.inj (hw.symm.trans hu)]
      · rw [reduce_append_comm]
        refine reduce_eq_some_iff.mpr (hw'.append fun u hu => ?_)
        rwa [← Option.some.inj (hv.symm.trans hu)]

/-- **Verdicts reduce to accepted** if there is one that is, and each of the others
is too or has no priority. -/
theorem reduce_eq_some_accepted_iff :
    reduce vs = some .accepted ↔
      .accepted ∈ vs ∧ ∀ v ∈ vs, v = .accepted ∨ v = .undefinedError := by
  rw [reduce_eq_some_iff, isStrongest_iff]
  refine and_congr_right fun _ => ⟨?_, ?_⟩
  · rintro ⟨-, hall⟩ v hv
    by_cases hrun : v.isRunVerdict = true
    · exact .inl (eq_accepted_of_outranks (hall v hv hrun))
    · rw [isRunVerdict_iff, not_not] at hrun
      exact .inr hrun
  · intro h
    refine ⟨rfl, fun v hv hrun => ?_⟩
    rcases h v hv with rfl | rfl
    · exact .refl hrun
    · exact absurd rfl (isRunVerdict_iff.mp hrun)

/-- What verdicts reduce to: the strongest of them, none if none has a priority.
Which verdicts occur decides it, those of abandoned judgings do not count, two
lists reduce to the stronger of what each reduces to, and only where nothing else
has a priority is it accepted. -/
structure Reduces (vs : List Verdict) : Prop where
  eq_some_iff : ∀ v, reduce vs = some v ↔ v.IsStrongest vs
  eq_none_iff : reduce vs = none ↔ ∀ v ∈ vs, v.priority = none
  of_perm : ∀ ws, ws.Perm vs → reduce ws = reduce vs
  of_mem_iff : ∀ ws, (∀ v, v ∈ ws ↔ v ∈ vs) → reduce ws = reduce vs
  filter : reduce (vs.filter fun v => v ≠ .undefinedError) = reduce vs
  append : ∀ ws, reduce (vs ++ ws) = (reduce vs).merge stronger (reduce ws)
  eq_accepted_iff : reduce vs = some .accepted ↔
    .accepted ∈ vs ∧ ∀ v ∈ vs, v = .accepted ∨ v = .undefinedError

theorem reduces (vs : List Verdict) : Reduces vs where
  eq_some_iff _ := reduce_eq_some_iff
  eq_none_iff := reduce_eq_none_iff
  of_perm _ h := reduce_congr fun _ => h.mem_iff
  of_mem_iff _ := reduce_congr
  filter := reduce_filter_ne_undefinedError
  append _ := reduce_append
  eq_accepted_iff := reduce_eq_some_accepted_iff

end Verdict

namespace Summary

variable {runs runs' : List Run} {testcases : List Testcase}

/-! ## Summaries -/

/-- The highest of some numbers is told by which numbers occur. -/
theorem highest_perm {ns ms : List Int} (h : ns.Perm ms) : highest ns = highest ms := by
  rcases eq_or_ne ns [] with rfl | hns
  · rw [h.nil_eq]
  · have hms : ms ≠ [] := fun hnil => hns (h.trans (.of_eq hnil)).eq_nil
    obtain ⟨hn, hnmax⟩ := highest_spec hns
    obtain ⟨hm, hmmax⟩ := highest_spec hms
    exact Int.le_antisymm (hmmax _ (h.mem_iff.mp hn)) (hnmax _ (h.mem_iff.mpr hm))

/-- **The order of the runs** does not show in verdict, number and memory. -/
theorem ofRuns_perm (h : runs'.Perm runs) :
    (ofRuns runs' testcases).finalVerdict = (ofRuns runs testcases).finalVerdict ∧
      (ofRuns runs' testcases).testcasesSeen = (ofRuns runs testcases).testcasesSeen ∧
      (ofRuns runs' testcases).highestMemory = (ofRuns runs testcases).highestMemory :=
  ⟨Verdict.reduce_congr fun _ => (h.map Run.verdict).mem_iff, h.length_eq,
    highest_perm (h.map Run.executeMemory)⟩

/-- **More runs** end in a verdict that is as strong at least. -/
theorem exists_finalVerdict_of_subperm {v : Verdict} (h : runs.Subperm runs')
    (hv : (ofRuns runs testcases).finalVerdict = some v) :
    ∃ w, (ofRuns runs' testcases).finalVerdict = some w ∧ w.Outranks v :=
  Verdict.exists_reduce_of_subset (List.map_subset Run.verdict h.subset) hv

/-- **More runs** complete a judging that fewer complete. -/
theorem isComplete_of_subperm {fullTest : Bool} {n : Nat} (h : runs.Subperm runs')
    (hc : (ofRuns runs testcases).isComplete fullTest n = true) :
    (ofRuns runs' testcases).isComplete fullTest n = true := by
  rw [isComplete, Bool.or_eq_true, Bool.and_eq_true, Bool.and_eq_true] at hc ⊢
  rcases hc with ⟨hfull, hfailed⟩ | ⟨hpos, hseen⟩
  · refine .inl ⟨hfull, ?_⟩
    obtain ⟨v, hv, hne⟩ := (Option.any_eq_true _ _).mp hfailed
    obtain ⟨w, hw, hwv⟩ := exists_finalVerdict_of_subperm h hv
    have hnot : ∀ u : Verdict, (!u.isAccepted) = true ↔ u ≠ .accepted := fun u => by
      rw [Bool.not_eq_true', ← Bool.not_eq_true, Verdict.isAccepted_iff]
    rw [hw, Option.any_some, hnot]
    exact hwv.ne_accepted ((hnot v).mp hne)
  · exact .inr ⟨hpos, decide_eq_true ((of_decide_eq_true hseen).trans h.length_le)⟩

/-- **Verdicts reduce to the strongest of them**, so that the summary of some runs
does not tell their order, and more runs neither weaken its verdict nor make it
incomplete again. -/
theorem reduces_and_grows (vs : List Verdict) (runs : List Run) (testcases : List Testcase) :
    Verdict.Reduces vs ∧
      (∀ runs' : List Run, runs'.Perm runs →
        (ofRuns runs' testcases).finalVerdict = (ofRuns runs testcases).finalVerdict ∧
        (ofRuns runs' testcases).testcasesSeen = (ofRuns runs testcases).testcasesSeen ∧
        (ofRuns runs' testcases).highestMemory = (ofRuns runs testcases).highestMemory) ∧
      ∀ runs' : List Run, runs.Subperm runs' →
        (∀ v, (ofRuns runs testcases).finalVerdict = some v →
          ∃ w, (ofRuns runs' testcases).finalVerdict = some w ∧ w.Outranks v) ∧
        ∀ (fullTest : Bool) (n : Nat),
          (ofRuns runs testcases).isComplete fullTest n = true →
            (ofRuns runs' testcases).isComplete fullTest n = true :=
  ⟨Verdict.reduces vs, fun _ => ofRuns_perm,
    fun _ h => ⟨fun _ => exists_finalVerdict_of_subperm h, fun _ _ => isComplete_of_subperm h⟩⟩

/-- A run of the first testcase, accepted. -/
def passedRun : Run := ⟨1, 1, 1, .accepted, 0.5, 1024, ⟨0, false⟩⟩

/-- A run of the second testcase with a wrong answer. -/
def wrongRun : Run := ⟨2, 1, 2, .wrongAnswer, 1.25, 4096, ⟨0, false⟩⟩

/-- A run of the third testcase that took too long. -/
def slowRun : Run := ⟨3, 1, 3, .timeLimitExceeded, 10, 2048, ⟨0, false⟩⟩

/-- An accepted run and a wrong one are wrong in either order, and complete a judging
that is not graded in full; a third run between them may change the verdict to a
stronger one, and the judging is still complete. -/
theorem reduces_and_grows_wrongRun :
    Verdict.IsStrongest .wrongAnswer [.accepted, .undefinedError, .wrongAnswer] ∧
    [wrongRun, passedRun].Perm [passedRun, wrongRun] ∧
    (ofRuns [wrongRun, passedRun] []).finalVerdict = some .wrongAnswer ∧
    (ofRuns [wrongRun, passedRun] []).highestMemory = 4096 ∧
    [passedRun, wrongRun].Subperm [passedRun, slowRun, wrongRun] ∧
    (∃ w, (ofRuns [passedRun, slowRun, wrongRun] []).finalVerdict = some w ∧
      w.Outranks .wrongAnswer) ∧
    (ofRuns [passedRun, wrongRun] []).isComplete false 3 = true ∧
    (ofRuns [passedRun, slowRun, wrongRun] []).isComplete false 3 = true := by
  obtain ⟨hreduces, horder, hgrows⟩ := reduces_and_grows
    [.accepted, .undefinedError, .wrongAnswer] [passedRun, wrongRun] []
  have hperm : [wrongRun, passedRun].Perm [passedRun, wrongRun] := .swap ..
  have hsub : [passedRun, wrongRun].Subperm [passedRun, slowRun, wrongRun] :=
    (List.Sublist.cons_cons _ (.cons _ (.refl _))).subperm
  obtain ⟨hverdict, -, hmemory⟩ := horder _ hperm
  obtain ⟨hstronger, hcomplete⟩ := hgrows _ hsub
  have hcount : (ofRuns [passedRun, wrongRun] []).isComplete false 3 = true := rfl
  exact ⟨(hreduces.eq_some_iff _).mp rfl, hperm, hverdict, hmemory, hsub, hstronger _ rfl, hcount,
    hcomplete _ _ hcount⟩

end Summary

end JudgeQueue
