import JudgeQueue.Proofs.Graded.Keeps
/-!
# Graded stores — the progress of judgings

A judging has a text that grows with its runs: a batch writes one character
for each run that it records, and records the runs after those that are there.
So until a judging ends its text spells its runs in the order of their ids.
Other changes touch neither, and a run disappears only with a testcase that no
judging is held for.
-/

namespace JudgeQueue

namespace Judging

/-- A judging goes on with the text that it has, and stays ended once it
is. -/
structure KeepsProgress (j j' : Judging) : Prop where
  id : j'.id = j.id
  runVerdicts : j'.runVerdicts = j.runVerdicts
  ended : j.lifecycle = .finalized → j'.lifecycle = .finalized

variable {j : Judging}

theorem KeepsProgress.refl (j : Judging) : j.KeepsProgress j :=
  ⟨rfl, rfl, fun h => h⟩

theorem keepsProgress_of_queued (hl : j.lifecycle = .queued) {j' : Judging} (hid : j'.id = j.id)
    (htext : j'.runVerdicts = j.runVerdicts) : j.KeepsProgress j' := by
  refine ⟨hid, htext, fun hfin => ?_⟩
  rw [hl] at hfin
  cases hfin

theorem keepsProgress_compiled (j : Judging) (success : Bool) (output : String) (now : Instant) :
    j.KeepsProgress (Dispatch.compiled j success output now) := by
  cases success with
  | true => exact ⟨rfl, rfl, fun h => h⟩
  | false => exact ⟨rfl, rfl, fun _ => rfl⟩

end Judging

namespace Store

/-- The text of a judging has one character for each of its runs, in the order
of their ids. -/
def Spells (s : Store) (j : Judging) : Prop :=
  j.runVerdicts.toList.map some = (s.runsOf j.id).map fun n => n.verdict.progressChar

/-- So has the text of every judging that has not ended. -/
def Spelled (s : Store) : Prop :=
  ∀ j ∈ s.judgings, j.lifecycle ≠ .finalized → s.Spells j

/-- The runs are the same, judgings keep their texts, and those that are new
have no runs. -/
structure KeepsProgress (s s' : Store) : Prop where
  runs : s'.runs = s.runs
  back : ∀ j' ∈ s'.judgings, (∃ j ∈ s.judgings, j.KeepsProgress j') ∨
    j'.runVerdicts = "" ∧ s.lastJudging < j'.id

variable {s s' : Store}

namespace KeepsProgress

/-! ## Changes beside the runs -/

/-- A change of some judgings, row by row. -/
theorem of_update {p : Judging → Bool} {f : Judging → Judging} (hf : ∀ j, key (f j) = key j)
    (hruns : s'.runs = s.runs) (hjud : s'.judgings = s.judgings.update p f hf)
    (h : ∀ j ∈ s.judgings, p j = true → j.KeepsProgress (f j)) : s.KeepsProgress s' := by
  refine ⟨hruns, fun j' hj' => .inl ?_⟩
  rw [hjud, Table.mem_update] at hj'
  obtain ⟨j, hj, rfl⟩ := hj'
  refine ⟨j, hj, ?_⟩
  split
  · next hp => exact h j hj hp
  · exact .refl j

/-- A change of one judging. -/
theorem of_modify {j : Judging} {f : Judging → Judging} (hf : ∀ j, key (f j) = key j)
    (hruns : s'.runs = s.runs) (hjud : s'.judgings = s.judgings.modify j.id f hf)
    (hj : j ∈ s.judgings) (h : j.KeepsProgress (f j)) : s.KeepsProgress s' := by
  refine of_update hf hruns hjud fun i hi hid => ?_
  rw [judging_eq hi hj (of_decide_eq_true hid)]
  exact h

/-- A change that leaves the judgings alone. -/
theorem of_eq (hruns : s'.runs = s.runs) (hjud : s'.judgings = s.judgings) : s.KeepsProgress s' :=
  ⟨hruns, fun j hj => .inl ⟨j, hjud ▸ hj, .refl j⟩⟩

/-- A judging is queued. -/
theorem of_queues {new : NewJudging} {f : Judging → Judging}
    (h : s.Queues s' (new.queued (s.lastJudging + 1)) f)
    (hf : ∀ a ∈ s.judgings, a.KeepsProgress (f a)) : s.KeepsProgress s' := by
  refine ⟨h.runs, fun b hb => ?_⟩
  rcases (h.mem_iff b).mp hb with rfl | ⟨a, ha, rfl⟩
  · exact .inr ⟨rfl, Int.lt_succ s.lastJudging⟩
  · exact .inl ⟨a, ha, hf a ha⟩

end KeepsProgress

/-- **Changes beside the runs** leave the texts as the runs spell them. -/
theorem Spelled.keeps (h : s.Spelled) (hs : s.Numbered) (hf : s.Filed)
    (hk : s.KeepsProgress s') : s'.Spelled := by
  intro j' hj' hl'
  rw [Spells, runsOf, hk.runs]
  rcases hk.back j' hj' with ⟨j, hj, hkeeps⟩ | ⟨htext, hlt⟩
  · rw [hkeeps.runVerdicts, hkeeps.id]
    exact h j hj fun hl => hl' (hkeeps.ended hl)
  · -- runs are filed under judgings that are there
    have hnone : s.runsOf j'.id = [] := by
      refine List.filter_eq_nil_iff.mpr fun n hn hid => ?_
      obtain ⟨i, hi, hin, -⟩ := hf.judging n hn
      have hle := hs.judging_le i hi
      have hid : n.judgingId = j'.id := of_decide_eq_true hid
      omega
    change _ = (s.runsOf j'.id).map _
    rw [hnone, htext]
    rfl

/-! ## Batches -/

end Store

/-- All of a run but its id. -/
def Run.unrecorded (n : Run) : NewRun :=
  ⟨n.judgingId, n.testcaseId, n.verdict, n.executeTime, n.executeMemory, n.completeTime⟩

namespace Store

variable {s s' : Store}

/-- A run is recorded after those that are there. -/
theorem rows_insertRun (hle : ∀ n ∈ s.runs, n.id ≤ s.lastRun) (new : NewRun) :
    (s.insertRun new).2.runs.rows = s.runs.rows ++ [new.recorded (s.lastRun + 1)] :=
  Table.rows_insert_of_le hle rfl

/-- It joins those of its judging. -/
theorem runsOf_insertRun (hle : ∀ n ∈ s.runs, n.id ≤ s.lastRun) (new : NewRun) (id : Int) :
    (s.insertRun new).2.runsOf id =
      s.runsOf id ++ if new.judgingId = id then [new.recorded (s.lastRun + 1)] else [] := by
  rw [runsOf, Table.filter, rows_insertRun hle, List.filter_append, List.filter_singleton]
  have hid : (new.recorded (s.lastRun + 1)).judgingId = new.judgingId := rfl
  rw [hid, Bool.cond_decide]
  rfl

/-- **A batch adds its runs** to those of its judging, one after another. Which
ids they get depends on what else has been recorded. -/
theorem unrecorded_recordRuns (hle : ∀ n ∈ s.runs, n.id ≤ s.lastRun) (id other : Int)
    (now : Instant) (reports : List RunReport) :
    ((s.recordRuns id now reports).runsOf other).map Run.unrecorded =
      (s.runsOf other).map Run.unrecorded ++
        if id = other then reports.map (Grading.RunReport.toRun · id now) else [] := by
  induction reports generalizing s with
  | nil => simp [recordRuns]
  | cons p rest ih =>
    have hrest := ih (run_le_insertRun hle (Grading.RunReport.toRun p id now))
    have hinsert : (s.insertRun (Grading.RunReport.toRun p id now)).2.runsOf other =
        s.runsOf other ++ if id = other then
          [(Grading.RunReport.toRun p id now).recorded (s.lastRun + 1)] else [] :=
      runsOf_insertRun hle _ other
    refine hrest.trans ?_
    rw [hinsert, List.map_append, List.append_assoc]
    by_cases hid : id = other
    · rw [if_pos hid, if_pos hid, if_pos hid]
      rfl
    · rw [if_neg hid, if_neg hid, if_neg hid]
      rfl

/-- So their verdicts follow the ones that are there. -/
theorem verdicts_recordRuns (hle : ∀ n ∈ s.runs, n.id ≤ s.lastRun) (id : Int) (now : Instant)
    (reports : List RunReport) :
    ((s.recordRuns id now reports).runsOf id).map Run.verdict =
      (s.runsOf id).map Run.verdict ++ reports.map RunReport.verdict := by
  have hruns := congrArg (List.map NewRun.verdict) (unrecorded_recordRuns hle id id now reports)
  rw [if_pos rfl, List.map_append, List.map_map, List.map_map, List.map_map] at hruns
  exact hruns

/-- Runs of other judgings are not touched. -/
theorem runsOf_recordRuns_of_ne (hle : ∀ n ∈ s.runs, n.id ≤ s.lastRun) {id other : Int}
    (hne : other ≠ id) (now : Instant) (reports : List RunReport) :
    (s.recordRuns id now reports).runsOf other = s.runsOf other := by
  induction reports generalizing s with
  | nil => rfl
  | cons p rest ih =>
    have hrest := ih (run_le_insertRun hle (Grading.RunReport.toRun p id now))
    refine hrest.trans ?_
    rw [runsOf_insertRun hle, if_neg fun heq => hne heq.symm, List.append_nil]

end Store

/-- **A batch writes one character for each report** that has the verdict of a
run. -/
theorem Grading.toList_fragment {reports : List RunReport}
    (h : ∀ p ∈ reports, p.verdict.isRunVerdict = true) :
    (fragment reports).toList.map some = reports.map fun p => p.verdict.progressChar := by
  induction reports with
  | nil => rfl
  | cons p rest ih =>
    obtain ⟨hp, hrest⟩ := List.forall_mem_cons.mp h
    obtain ⟨c, hc⟩ : ∃ c, p.verdict.progressChar = some c := by
      obtain ⟨n, hn⟩ := Option.isSome_iff_exists.mp hp
      exact ⟨Nat.digitChar n, by rw [Verdict.progressChar, hn]; rfl⟩
    have hprogress : (progress p.verdict).toList = [c] := by
      rw [progress, hc]
      simp
    rw [fragment, String.toList_append, List.map_append, ih hrest, hprogress,
      List.map_cons (l := rest), hc]
    rfl

namespace Store

variable {s s' : Store} {j : Judging} {r : Submission} {reports : List RunReport}

/-- **A batch** writes the characters of the runs that it records. -/
theorem IsBatch.spelled (h : s.IsBatch j r reports) (hf : s.Filed) (hsp : s.Spelled)
    (now : Instant) : (s.grade j.id r.problemId reports now).Spelled := by
  intro b hb hl
  have hmem : b = Grading.graded j ((s.recordRuns j.id now reports).runsOf j.id)
        (s.testcasesOf r.problemId) (Grading.fragment reports) now ∨
      b ∈ s.judgings ∧ b.id ≠ j.id := by
    rw [grade, Table.mem_modify] at hb
    rcases hb with ⟨a, ha, hid, rfl⟩ | hb
    · rw [judging_eq ha h.judging hid]
      exact .inl rfl
    · exact .inr hb
  change b.runVerdicts.toList.map some = ((s.recordRuns j.id now reports).runsOf b.id).map _
  rcases hmem with rfl | ⟨hb, hne⟩
  · -- it has not ended, so its text is all that has changed
    rcases graded_cases j ((s.recordRuns j.id now reports).runsOf j.id)
        (s.testcasesOf r.problemId) (Grading.fragment reports) now with
      ⟨-, hfin, -⟩ | ⟨hincomplete, -⟩
    · exact absurd hfin hl
    · rw [Grading.graded_of_incomplete hincomplete]
      have hbefore : s.Spells j := hsp j h.judging (by rw [h.claimed]; decide)
      have hverdicts := verdicts_recordRuns hf.run_le j.id now reports
      have hchars := congrArg (List.map Verdict.progressChar) hverdicts
      rw [List.map_append, List.map_map, List.map_map, List.map_map] at hchars
      change (j.runVerdicts ++ Grading.fragment reports).toList.map some = _
      rw [String.toList_append, List.map_append, hbefore, Grading.toList_fragment h.verdict]
      exact hchars.symm
  · rw [runsOf_recordRuns_of_ne hf.run_le hne]
    exact hsp b hb hl

/-! ## Testcases that are removed -/

/-- A testcase that no judging is held for takes no runs away from judgings
that have not ended. -/
theorem Sound.spelled_deleteTestcase (hs : s.Sound) (hf : s.Filed) (hsp : s.Spelled)
    {t : Testcase} (ht : t ∈ s.testcases)
    (hidle : ∀ j ∈ s.judgings, ∀ r ∈ s.submissions, j.submissionId = r.id →
      r.problemId = t.problemId → j.isClaimed = false) : (s.deleteTestcase t.id).2.Spelled := by
  intro j hj hl
  have hj : j ∈ s.judgings := hj
  have hkept : ∀ n ∈ s.runs, n.judgingId = j.id → n.testcaseId ≠ t.id := by
    intro n hn hid htest
    obtain ⟨i, hi, hin, hil, u, ⟨hu, hup⟩, hun⟩ := hf.judging n hn
    rw [judging_eq hi hj (hin.trans hid)] at hil hup
    have hclaimed : j.lifecycle = .claimed := by
      cases hstate : j.lifecycle with
      | queued => exact absurd hstate hil
      | claimed => rfl
      | finalized => exact absurd hstate hl
    have hut : u = t := Table.eq_of_key_eq hu ht (hun.trans htest)
    obtain ⟨r, hr, hrid⟩ := hs.numbered.owned j hj
    rw [← hrid, problemOf_eq hr, hut] at hup
    have hfree := hidle j hj r hr hrid.symm (Option.some.inj hup)
    rw [Judging.isClaimed_iff.mpr hclaimed] at hfree
    cases hfree
  have hruns : (s.deleteTestcase t.id).2.runsOf j.id = s.runsOf j.id := by
    change (s.runs.rows.filter fun n => n.testcaseId ≠ t.id).filter _ = s.runs.rows.filter _
    rw [List.filter_filter]
    refine List.filter_congr fun n hn => ?_
    by_cases hid : n.judgingId = j.id
    · simp [hid, hkept n hn hid]
    · simp [hid]
  rw [Spells, hruns]
  exact hsp j hj hl

/-! ## All changes -/

/-- Submissions that are rejudged one after another. -/
theorem Sound.spelled_rejudged {ds : List StatisticsDelta} (hs : s.Sound) (hg : s.Graded)
    (hsp : s.Spelled) (hr : Rejudged s ds s') : s'.Spelled := by
  induction hr with
  | none => exact hsp
  | @next s _ r _ _ fullTest hr _ hfull _ _ ih =>
    have hstep : s.KeepsProgress (s.rejudge r.id fullTest) := by
      refine .of_queues (queues_rejudge hs.numbered hr fullTest) fun a _ => ?_
      split
      · exact ⟨rfl, rfl, fun h => h⟩
      · exact .refl a
    exact ih (hs.rejudge hr fullTest) (hg.keeps (keepsGrades_rejudge hs.numbered hr hfull))
      (hsp.keeps hs.numbered hg.filed hstep)

/-- **Every change** leaves the texts as the runs spell them. -/
theorem Sound.spelled_change {now : Instant} {es : List Event} (hs : s.Sound) (hg : s.Graded)
    (hsp : s.Spelled) (hc : Change now s es s') : s'.Spelled := by
  have hkeeps : s.KeepsProgress s' → s'.Spelled := hsp.keeps hs.numbered hg.filed
  cases hc with
  | addJudgehost | touchJudgehost | switchJudgehost | switchProblem | switchLanguage | raise
  | close | openRejudging => exact hkeeps (.of_eq rfl rfl)
  | removeTestcase ht hidle => exact hs.spelled_deleteTestcase hg.filed hsp ht hidle
  | enqueue hr hidle =>
    exact hkeeps (.of_queues (queues_queue hs.numbered ⟨_, hr, rfl⟩) fun a _ => .refl a)
  | claim hhost hj =>
    obtain ⟨hmem, hl⟩ := mem_of_nextDispatchable hj
    exact hkeeps (.of_modify (Judging.key_claimedBy · _ now) rfl rfl hmem
      (Judging.keepsProgress_of_queued hl rfl rfl))
  | putBack hj =>
    obtain ⟨hmem, hl⟩ := mem_of_nextDispatchable hj
    exact hkeeps (.of_modify Judging.key_unclaimed rfl rfl hmem
      (Judging.keepsProgress_of_queued hl rfl rfl))
  | compile hj hheld success output =>
    exact hkeeps (.of_modify (Dispatch.key_compiled · success output now) rfl rfl hj
      (Judging.keepsProgress_compiled _ success output now))
  | grade hj hheld hr hsub hverdict htestcase hfresh hnodup =>
    have hbatch : s.IsBatch _ _ _ := ⟨hj, Judging.lifecycle_of_isClaimedBy hheld, hr, hsub,
      hverdict, htestcase, hfresh, hnodup⟩
    exact hbatch.spelled hg.filed hsp now
  | requeue hj hheld _ =>
    refine hkeeps (.of_queues (queues_replace hs.numbered hj now) fun a _ => ?_)
    split
    · exact ⟨rfl, rfl, fun _ => rfl⟩
    · exact .refl a
  | rejudge hr _ =>
    -- the statistics have no part in it
    have hrejudged := hs.spelled_rejudged hg hsp hr
    exact hrejudged
  | propose hq hopen hr hfree hcontest hj hsub _ fullTest =>
    exact hkeeps (.of_queues (hs.queues_propose hr hsub fullTest) fun a _ => .refl a)
  | apply hq hopen hdone operator _ =>
    exact hkeeps (.of_update (Judging.key_settled _) rfl rfl fun _ _ _ => ⟨rfl, rfl, fun h => h⟩)
  | cancel hq hopen operator =>
    refine hkeeps ⟨(keepsGrades_cancelRejudging hg _ now operator).runs, fun b hb => .inl ?_⟩
    rcases mem_judgings_cancelRejudging.mp hb with ⟨a, ha, -, -, rfl⟩ | ⟨hb, -⟩
    · exact ⟨a, ha, rfl, rfl, fun _ => rfl⟩
    · exact ⟨b, hb, .refl b⟩
  | count id _ =>
    exact hkeeps (.of_update Judging.key_flagged rfl rfl fun _ _ _ => ⟨rfl, rfl, fun h => h⟩)
  | rebuild contestId =>
    exact hkeeps (.of_update Judging.key_reflagged rfl rfl fun _ _ _ => ⟨rfl, rfl, fun h => h⟩)

end Store

end JudgeQueue
