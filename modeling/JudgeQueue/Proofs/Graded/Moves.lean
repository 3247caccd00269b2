import JudgeQueue.Proofs.Graded.Basic
import JudgeQueue.Proofs.Sound.Keeps
/-!
# Graded stores — changes beside the runs

Most changes neither record runs nor take testcases away. A judging is then
handed out, flagged or proposed, and if it ends it has not compiled or is
abandoned. Such a change keeps the store graded: it makes no judging claimed
that has runs, and none accepted.
-/

namespace JudgeQueue

namespace Judging

/-- A judging goes on without regard to its runs: it is graded on the same,
and if it ends here it has not compiled or is abandoned. -/
structure KeepsGrade (j j' : Judging) : Prop where
  id : j'.id = j.id
  submissionId : j'.submissionId = j.submissionId
  fullTest : j'.fullTest = j.fullTest
  step : j'.lifecycle = j.lifecycle ∧ j'.verdict = j.verdict ∨
    j.lifecycle = .queued ∧ j'.lifecycle = .claimed ∨
    j'.lifecycle = .finalized ∧
      (j'.verdict = some .compileError ∨ j'.verdict = some .undefinedError)

variable {j j' : Judging}

/-- How a judging stands is not touched. -/
theorem KeepsGrade.of_eq (hid : j'.id = j.id) (hsub : j'.submissionId = j.submissionId)
    (hfull : j'.fullTest = j.fullTest) (hl : j'.lifecycle = j.lifecycle)
    (hv : j'.verdict = j.verdict) : j.KeepsGrade j' :=
  ⟨hid, hsub, hfull, .inl ⟨hl, hv⟩⟩

theorem KeepsGrade.refl (j : Judging) : j.KeepsGrade j :=
  .of_eq rfl rfl rfl rfl rfl

theorem keepsGrade_claimedBy (hl : j.lifecycle = .queued) (hostname : String) (now : Instant) :
    j.KeepsGrade (j.claimedBy hostname now) :=
  ⟨rfl, rfl, rfl, .inr (.inl ⟨hl, rfl⟩)⟩

theorem keepsGrade_abandon (j : Judging) (now : Instant) :
    j.KeepsGrade ((JudgingPatch.abandon now).apply j) :=
  ⟨rfl, rfl, rfl, .inr (.inr ⟨rfl, .inr rfl⟩)⟩

theorem keepsGrade_compiled (j : Judging) (success : Bool) (output : String) (now : Instant) :
    j.KeepsGrade (Dispatch.compiled j success output now) := by
  cases success with
  | true => exact .of_eq rfl rfl rfl rfl rfl
  | false => exact ⟨rfl, rfl, rfl, .inr (.inr ⟨rfl, .inl rfl⟩)⟩

/-- A judging that has been handed out does not return to the queue. -/
theorem KeepsGrade.ne_queued (h : j.KeepsGrade j') (hl : j.lifecycle ≠ .queued) :
    j'.lifecycle ≠ .queued := by
  rcases h.step with ⟨hl', -⟩ | ⟨-, hl'⟩ | ⟨hl', -⟩
  · rwa [hl']
  · rw [hl']
    decide
  · rw [hl']
    decide

/-- A judging that is held was held before, or waited in the queue. -/
theorem KeepsGrade.of_claimed (h : j.KeepsGrade j') (hl : j'.lifecycle = .claimed) :
    j.lifecycle = .claimed ∨ j.lifecycle = .queued := by
  rcases h.step with ⟨hl', -⟩ | ⟨hq, -⟩ | ⟨hl', -⟩
  · exact .inl (hl'.symm.trans hl)
  · exact .inr hq
  · rw [hl] at hl'
    cases hl'

/-- A judging that has compiled and was not abandoned ended before. -/
theorem KeepsGrade.of_finalized (h : j.KeepsGrade j') (hl : j'.lifecycle = .finalized)
    (hce : j'.verdict ≠ some .compileError) (hue : j'.verdict ≠ some .undefinedError) :
    j.lifecycle = .finalized ∧ j.verdict = j'.verdict := by
  rcases h.step with ⟨hl', hv⟩ | ⟨-, hl'⟩ | ⟨-, hv | hv⟩
  · exact ⟨hl'.symm.trans hl, hv.symm⟩
  · rw [hl] at hl'
    cases hl'
  · exact absurd hv hce
  · exact absurd hv hue

end Judging

namespace Store

/-- Judgings are graded on what they were graded on before. -/
structure KeepsTasks (s s' : Store) : Prop where
  testcases : s'.testcases = s.testcases
  problemOf : ∀ id, s'.problemOf id = s.problemOf id
  isJury : ∀ id, s'.isJury id = s.isJury id

/-- Neither runs nor testcases change. Judgings go on without them, and those
that are new wait in the queue. -/
structure KeepsGrades (s s' : Store) : Prop extends s.KeepsTasks s' where
  runs : s'.runs = s.runs
  lastRun : s'.lastRun = s.lastRun
  forward : ∀ j ∈ s.judgings, j.lifecycle ≠ .queued → ∃ j' ∈ s'.judgings, j.KeepsGrade j'
  back : ∀ j' ∈ s'.judgings, (∃ j ∈ s.judgings, j.KeepsGrade j') ∨
    j'.lifecycle = .queued ∧ (s.isJury j'.submissionId = true → j'.fullTest = true)

variable {s s' : Store}

/-! ## Submissions -/

theorem KeepsTasks.of_eq (htest : s'.testcases = s.testcases)
    (hsub : s'.submissions = s.submissions) : s.KeepsTasks s' :=
  ⟨htest, fun id => by rw [Store.problemOf, hsub]; rfl, fun id => by rw [Store.isJury, hsub]; rfl⟩

/-- Submissions that enter or leave a rejudging ask for the same. -/
theorem KeepsTasks.of_update {p : Submission → Bool} {rejudgingId : Option Int}
    (htest : s'.testcases = s.testcases)
    (hsub : s'.submissions = s.submissions.update p (.moved rejudgingId)
      (Submission.key_moved rejudgingId)) : s.KeepsTasks s' := by
  have hfind : ∀ id, s'.submissions.find? id = (s.submissions.find? id).map fun r =>
      if p r then r.moved rejudgingId else r := fun id => by rw [hsub, Table.find?_update]
  refine ⟨htest, fun id => ?_, fun id => ?_⟩
  · rw [Store.problemOf, Store.problemOf, hfind, Option.map_map]
    congr 1
    funext r
    rw [Function.comp_apply]
    split <;> rfl
  · rw [Store.isJury, Store.isJury, hfind, Option.any_map]
    congr 1
    funext r
    split <;> rfl

namespace KeepsGrades

/-! ## Which changes are such -/

/-- A change of some judgings, row by row. -/
theorem of_update {p : Judging → Bool} {f : Judging → Judging} (hf : ∀ j, key (f j) = key j)
    (ht : s.KeepsTasks s') (hruns : s'.runs = s.runs) (hlast : s'.lastRun = s.lastRun)
    (hjud : s'.judgings = s.judgings.update p f hf)
    (h : ∀ j ∈ s.judgings, p j = true → j.KeepsGrade (f j)) : s.KeepsGrades s' := by
  have hrow : ∀ j ∈ s.judgings, j.KeepsGrade (if p j then f j else j) := by
    intro j hj
    split
    · next hp => exact h j hj hp
    · exact .refl j
  refine ⟨ht, hruns, hlast, fun j hj _ => ?_, fun j' hj' => ?_⟩
  · refine ⟨if p j then f j else j, ?_, hrow j hj⟩
    rw [hjud, Table.mem_update]
    exact ⟨j, hj, rfl⟩
  · rw [hjud, Table.mem_update] at hj'
    obtain ⟨j, hj, rfl⟩ := hj'
    exact .inl ⟨j, hj, hrow j hj⟩

/-- A change of one judging. -/
theorem of_modify {j : Judging} {f : Judging → Judging} (hf : ∀ j, key (f j) = key j)
    (ht : s.KeepsTasks s') (hruns : s'.runs = s.runs) (hlast : s'.lastRun = s.lastRun)
    (hjud : s'.judgings = s.judgings.modify j.id f hf) (hj : j ∈ s.judgings)
    (h : j.KeepsGrade (f j)) : s.KeepsGrades s' := by
  refine of_update hf ht hruns hlast hjud fun i hi hid => ?_
  rw [judging_eq hi hj (of_decide_eq_true hid)]
  exact h

/-- A change that leaves the judgings alone. -/
theorem of_eq (ht : s.KeepsTasks s') (hruns : s'.runs = s.runs) (hlast : s'.lastRun = s.lastRun)
    (hjud : s'.judgings = s.judgings) : s.KeepsGrades s' :=
  ⟨ht, hruns, hlast, fun j hj _ => ⟨j, hjud ▸ hj, .refl j⟩,
    fun j hj => .inl ⟨j, hjud ▸ hj, .refl j⟩⟩

/-- A judging that is queued has to be graded in full where its submission
asks for it. -/
theorem of_queues {new : Judging} {f : Judging → Judging} (h : s.Queues s' new f)
    (ht : s.KeepsTasks s') (hlast : s'.lastRun = s.lastRun)
    (hf : ∀ a ∈ s.judgings, a.KeepsGrade (f a))
    (hnew : s.isJury new.submissionId = true → new.fullTest = true) : s.KeepsGrades s' := by
  refine ⟨ht, h.runs, hlast, fun j hj _ => ⟨f j, h.mem_old hj, hf j hj⟩, fun b hb => ?_⟩
  rcases (h.mem_iff b).mp hb with rfl | ⟨a, ha, rfl⟩
  · exact .inr ⟨h.lifecycle_new, hnew⟩
  · exact .inl ⟨a, ha, hf a ha⟩

/-! ## What they keep -/

section Keeps

variable (h : s.KeepsGrades s') {j j' : Judging}

include h

theorem isGradedOn_iff (hj : j.KeepsGrade j') {t : Testcase} :
    s'.IsGradedOn j' t ↔ s.IsGradedOn j t := by
  rw [IsGradedOn, IsGradedOn, h.testcases, h.problemOf, hj.submissionId]

theorem sameGrade (hj : j.KeepsGrade j') : s.SameGrade j s' j' :=
  .of_runs hj.id hj.fullTest (fun n _ => by rw [h.runs]) fun _ => h.isGradedOn_iff hj

theorem filed (hs : s.Filed) : s'.Filed := by
  refine ⟨fun n hn => ?_, fun n hn => ?_, fun m hm n hn => ?_⟩
  · rw [h.runs] at hn
    rw [h.lastRun]
    exact hs.run_le n hn
  · rw [h.runs] at hn
    obtain ⟨j, hj, hid, hl, t, ht, htn⟩ := hs.judging n hn
    obtain ⟨j', hj', hkeeps⟩ := h.forward j hj hl
    exact ⟨j', hj', hkeeps.id.trans hid, hkeeps.ne_queued hl, t,
      (h.isGradedOn_iff hkeeps).mpr ht, htn⟩
  · rw [h.runs] at hm hn
    exact hs.run_eq m hm n hn

/-- A judging that goes on stands as its runs say: one that is handed out has
none, and none is accepted here. -/
theorem rated (hs : s.Filed) (hj : j ∈ s.judgings) (hkeeps : j.KeepsGrade j')
    (hr : s.Rated j) : s'.Rated j' where
  undecided hl' := by
    rw [(h.sameGrade hkeeps).isDecided]
    rcases hkeeps.of_claimed hl' with hl | hl
    · exact hr.undecided hl
    · exact hs.not_isDecided_of_queued hj hl
  accepted hl' hv' := by
    have hne : ∀ v, v ≠ .accepted → j'.verdict ≠ some v := fun v hv heq =>
      hv (Option.some.inj (heq.symm.trans hv'))
    obtain ⟨hl, hv⟩ := hkeeps.of_finalized hl' (hne _ (by decide)) (hne _ (by decide))
    rw [(h.sameGrade hkeeps).failed, (h.sameGrade hkeeps).allRun]
    exact hr.accepted hl (hv.trans hv')
  full hl' hfull hce hue := by
    obtain ⟨hl, hv⟩ := hkeeps.of_finalized hl' hce hue
    rw [(h.sameGrade hkeeps).allRun]
    exact hr.full hl (hkeeps.fullTest.symm.trans hfull) (hv ▸ hce) (hv ▸ hue)
  jury := by
    rw [h.isJury, hkeeps.submissionId, hkeeps.fullTest]
    exact hr.jury

end Keeps

end KeepsGrades

/-- **Changes beside the runs keep the store graded.** -/
theorem Graded.keeps (hs : s.Graded) (h : s.KeepsGrades s') : s'.Graded := by
  refine ⟨h.filed hs.filed, fun j' hj' => ?_⟩
  rcases h.back j' hj' with ⟨j, hj, hkeeps⟩ | ⟨hl, hjury⟩
  · exact h.rated hs.filed hj hkeeps (hs.rated j hj)
  · -- what is new waits in the queue, and nothing is asked of that
    have hne : ∀ l, j'.lifecycle = l → l = .queued := fun l hl' => hl'.symm.trans hl
    refine ⟨fun hl' => ?_, fun hl' => ?_, fun hl' => ?_, ?_⟩
    · cases hne _ hl'
    · cases hne _ hl'
    · cases hne _ hl'
    · rwa [h.isJury]

/-! ## The changes in question -/

section Changes

variable {r : Submission} {j : Judging} {q : Rejudging}

/-- A solution of the jury is graded in full, if what is queued for it is. -/
theorem fullTest_of_isJury (hr : r ∈ s.submissions) {fullTest : Bool}
    (hfull : r.requiresFullTest = true → fullTest = true) (hjury : s.isJury r.id = true) :
    fullTest = true := by
  rw [isJury_eq hr] at hjury
  exact hfull hjury

theorem keepsGrades_handOut (hj : s.nextDispatchable = some j) (hostname : String)
    (now : Instant) : s.KeepsGrades (s.handOut j.id hostname now) := by
  obtain ⟨hmem, hl⟩ := mem_of_nextDispatchable hj
  exact .of_modify (Judging.key_claimedBy · hostname now) (.of_eq rfl rfl) rfl rfl rfl hmem
    (Judging.keepsGrade_claimedBy hl hostname now)

/-- The replacement of a judging is graded in full if the judging is. -/
theorem keepsGrades_replace (h : s.Numbered) (hg : s.Graded) (hj : j ∈ s.judgings)
    (now : Instant) : s.KeepsGrades (s.replace j now) := by
  refine .of_queues (queues_replace h hj now) (.of_eq rfl rfl) rfl (fun a _ => ?_)
    (hg.rated j hj).jury
  split
  · exact a.keepsGrade_abandon now
  · exact .refl a

theorem keepsGrades_rejudge (h : s.Numbered) (hr : r ∈ s.submissions) {fullTest : Bool}
    (hfull : r.requiresFullTest = true → fullTest = true) :
    s.KeepsGrades (s.rejudge r.id fullTest) := by
  refine .of_queues (queues_rejudge h hr fullTest) (.of_eq rfl rfl) rfl (fun a _ => ?_)
    (fullTest_of_isJury hr hfull)
  split
  · exact .of_eq rfl rfl rfl rfl rfl
  · exact .refl a

/-- Submissions that are rejudged one after another. -/
theorem Sound.graded_rejudged {ds : List StatisticsDelta} (h : s.Sound) (hg : s.Graded)
    (hr : Rejudged s ds s') : s'.Graded := by
  induction hr with
  | none => exact hg
  | next hr _ hfull _ _ ih =>
    exact ih (h.rejudge hr _) (hg.keeps (keepsGrades_rejudge h.numbered hr hfull))

/-- A candidate is graded in full if the judging that it stands beside is. -/
theorem Sound.keepsGrades_propose (h : s.Sound) (hg : s.Graded) (hr : r ∈ s.submissions)
    (hj : j ∈ s.judgings) (hsub : j.submissionId = r.id) (fullTest : Bool) :
    s.KeepsGrades (s.propose r.id q.id j fullTest) := by
  refine .of_queues (h.queues_propose hr hsub fullTest) (.of_update rfl rfl) rfl
    (fun a _ => .refl a) fun hjury => ?_
  change (fullTest || j.fullTest) = true
  rw [(hg.rated j hj).jury hjury, Bool.or_true]

theorem keepsGrades_applyRejudging (id : Int) (now : Instant) (operator : Option Int) :
    s.KeepsGrades (s.applyRejudging id now operator) :=
  .of_update (Judging.key_settled id) (.of_update rfl rfl) rfl rfl rfl
    fun _ _ _ => .of_eq rfl rfl rfl rfl rfl

/-- The candidates that are dropped wait in the queue, so no runs go with
them. -/
theorem keepsGrades_cancelRejudging (hg : s.Graded) (id : Int) (now : Instant)
    (operator : Option Int) : s.KeepsGrades (s.cancelRejudging id now operator) := by
  refine ⟨.of_update rfl rfl, ?_, rfl, fun j hj hl => ?_, fun j' hj' => .inl ?_⟩
  · refine Table.ext (List.filter_eq_self.mpr fun n hn => ?_)
    rw [Bool.not_eq_true', ← Bool.not_eq_true, List.contains_iff_mem, List.mem_map]
    rintro ⟨j, hj, hid⟩
    obtain ⟨hmem, hdoomed⟩ := Table.mem_filter.mp hj
    rw [Bool.and_eq_true, Judging.isQueued_iff] at hdoomed
    exact hg.filed.lifecycle_ne_queued hmem hn hid.symm hdoomed.2
  · by_cases hclaimed : j.rejudgingId = some id ∧ j.lifecycle = .claimed
    · exact ⟨_, mem_judgings_cancelRejudging.mpr (.inl ⟨j, hj, hclaimed.1, hclaimed.2, rfl⟩),
        j.keepsGrade_abandon now⟩
    · refine ⟨j, mem_judgings_cancelRejudging.mpr (.inr ⟨hj, fun hid => ?_⟩), .refl j⟩
      cases hstate : j.lifecycle with
      | queued => exact absurd hstate hl
      | claimed => exact absurd ⟨hid, hstate⟩ hclaimed
      | finalized => rfl
  · rcases mem_judgings_cancelRejudging.mp hj' with ⟨j, hj, -, -, rfl⟩ | ⟨hj, -⟩
    · exact ⟨j, hj, j.keepsGrade_abandon now⟩
    · exact ⟨j', hj, .refl j'⟩

end Changes

end Store

end JudgeQueue
