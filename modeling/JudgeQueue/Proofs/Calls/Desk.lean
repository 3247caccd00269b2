import JudgeQueue.Proofs.Graded.Progress
/-!
# Calls of judgehosts — what lies on a desk

A judgehost owns its own row, the judgings that it holds and their runs. All
that together is its desk. A change that is about another judgehost, or about a
judging that another one holds or none, leaves the desk as it is: neither does
anything on it change, nor does anything come onto it or go.
-/

namespace JudgeQueue

namespace Judging

variable {j : Judging} {host hostname : String}

/-- A judging is held by one judgehost only. -/
theorem isClaimedBy_of_ne (h : j.isClaimedBy hostname = true) (hne : hostname ≠ host) :
    j.isClaimedBy host = false := by
  rw [isClaimedBy, Bool.and_eq_true, decide_eq_true_eq] at h
  have hserver : j.server ≠ some host := fun heq => hne (Option.some.inj (h.2.symm.trans heq))
  rw [isClaimedBy, decide_eq_false hserver, Bool.and_false]

/-- One that is not claimed is held by none. -/
theorem isClaimedBy_of_not_claimed (h : j.lifecycle ≠ .claimed) : j.isClaimedBy host = false := by
  refine Bool.eq_false_iff.mpr fun hheld => ?_
  exact h (lifecycle_of_isClaimedBy hheld)

/-- Compiling does not pass a judging on to another judgehost. -/
theorem isClaimedBy_compiled (h : j.isClaimedBy host = false) (success : Bool) (output : String)
    (now : Instant) : (Dispatch.compiled j success output now).isClaimedBy host = false := by
  cases success with
  | true => exact h
  | false => exact isClaimedBy_of_not_claimed (by simp [Dispatch.compiled])

/-- Nor does grading. -/
theorem isClaimedBy_graded (h : j.isClaimedBy host = false) (runs : List Run)
    (testcases : List Testcase) (text : String) (now : Instant) :
    (Grading.graded j runs testcases text now).isClaimedBy host = false := by
  unfold Grading.graded
  simp only
  split
  · exact isClaimedBy_of_not_claimed (by simp [Grading.finish])
  · exact h

end Judging

/-- What a judgehost owns. -/
structure Desk where
  row : Option Judgehost
  /-- The judgings that it holds, each with its runs. -/
  work : List (Judging × List Run)

namespace Store

/-- The judgings that a judgehost holds. -/
def workOf (s : Store) (host : String) : List Judging :=
  s.judgings.filter fun j => j.isClaimedBy host

/-- All that a judgehost owns. -/
def desk (s : Store) (host : String) : Desk where
  row := s.judgehosts.find? host
  work := (s.workOf host).map fun j => (j, s.runsOf j.id)

variable {s s' : Store} {host hostname : String}

theorem mem_workOf {j : Judging} :
    j ∈ s.workOf host ↔ j ∈ s.judgings ∧ j.isClaimedBy host = true :=
  Table.mem_filter

/-- **A desk is as it was** if the row is, the same judgings are held, and they
have the same runs. -/
theorem desk_congr (hrow : s'.judgehosts.find? host = s.judgehosts.find? host)
    (hwork : s'.workOf host = s.workOf host)
    (hruns : ∀ j ∈ s.workOf host, s'.runsOf j.id = s.runsOf j.id) : s'.desk host = s.desk host := by
  have hwith : ((s.workOf host).map fun j => (j, s'.runsOf j.id)) =
      (s.workOf host).map fun j => (j, s.runsOf j.id) := by
    refine List.map_congr_left fun j hj => ?_
    rw [hruns j hj]
  rw [desk, desk, hrow, hwork, hwith]

theorem row_of_desk (h : s'.desk host = s.desk host) :
    s'.judgehosts.find? host = s.judgehosts.find? host :=
  congrArg Desk.row h

theorem workOf_of_desk (h : s'.desk host = s.desk host) : s'.workOf host = s.workOf host := by
  have hfirst := congrArg (fun d : Desk => d.work.map Prod.fst) h
  simpa [desk, List.map_map, Function.comp_def] using hfirst

/-! ## Changes elsewhere -/

/-- Another judgehost is seen. -/
theorem desk_touchJudgehost (hne : hostname ≠ host) (now : Instant) :
    (s.touchJudgehost hostname now).desk host = s.desk host := by
  refine desk_congr ?_ rfl fun _ _ => rfl
  rw [touchJudgehost, Table.find?_modify]
  cases hfind : s.judgehosts.find? host with
  | none => rfl
  | some h =>
    have hkey : key h ≠ hostname := by
      rw [Table.key_of_find? hfind]
      exact hne.symm
    rw [Option.map_some, if_neg hkey]

/-- Another judgehost is new. -/
theorem desk_insertJudgehost {h : Judgehost} (hne : h.hostname ≠ host) :
    ({ s with judgehosts := s.judgehosts.insert h } : Store).desk host = s.desk host := by
  refine desk_congr ?_ rfl fun _ _ => rfl
  have hkey : key h ≠ host := hne
  rw [Table.find?_insert, if_neg hkey]

/-- A judging that is not on the desk changes, and does not get there. -/
theorem workOf_modify {id : Int} {f : Judging → Judging} (hf : ∀ j, key (f j) = key j)
    (h : ∀ j ∈ s.judgings, j.id = id →
      j.isClaimedBy host = false ∧ (f j).isClaimedBy host = false) :
    (s.judgings.modify id f hf).filter (fun j => j.isClaimedBy host) = s.workOf host :=
  Table.filter_update_of_not hf fun j hj hid => h j hj (of_decide_eq_true hid)

/-- A judging that another judgehost holds is requeued. -/
theorem desk_replace {j : Judging} (hj : j ∈ s.judgings) (hheld : j.isClaimedBy hostname = true)
    (hne : hostname ≠ host) (hs : s.Numbered) (now : Instant) :
    (s.replace j now).desk host = s.desk host := by
  have hqueue : (s.queue (.replacing j)).workOf host = s.workOf host := by
    refine Table.filter_insert_of_not ?_ fun a ha hkey => absurd hkey (hs.ne_next ha)
    exact Judging.isClaimedBy_of_not_claimed (by simp [NewJudging.queued])
  have hwork : (s.replace j now).workOf host = (s.queue (.replacing j)).workOf host := by
    refine workOf_modify (JudgingPatch.abandon now).key_apply fun a ha hid => ⟨?_, ?_⟩
    · rcases (mem_judgings_queue hs).mp ha with rfl | ha
      · exact absurd hid.symm (hs.ne_next hj)
      · rw [judging_eq ha hj hid]
        exact Judging.isClaimedBy_of_ne hheld hne
    · exact Judging.isClaimedBy_of_not_claimed (by simp [JudgingPatch.abandon, JudgingPatch.apply])
  exact desk_congr rfl (hwork.trans hqueue) fun _ _ => rfl

/-- A judging that waits in the queue goes to another judgehost. -/
theorem desk_handOut {j : Judging} (hj : j ∈ s.judgings) (hl : j.lifecycle = .queued)
    (hne : hostname ≠ host) (now : Instant) :
    (s.handOut j.id hostname now).desk host = s.desk host := by
  refine desk_congr rfl (workOf_modify (fun i => i.key_claimedBy hostname now) ?_) fun _ _ => rfl
  intro i hi hid
  have hheld : (i.claimedBy hostname now).isClaimedBy hostname = true := by
    simp [Judging.claimedBy, Judging.isClaimedBy, Judging.isClaimed]
  refine ⟨Judging.isClaimedBy_of_not_claimed ?_, Judging.isClaimedBy_of_ne hheld hne⟩
  rw [judging_eq hi hj hid, hl]
  decide

/-- A judging stays in the queue. -/
theorem desk_putBack {j : Judging} (hj : j ∈ s.judgings) (hl : j.lifecycle = .queued) :
    (s.putBack j.id).desk host = s.desk host := by
  refine desk_congr rfl (workOf_modify Judging.key_unclaimed ?_) fun _ _ => rfl
  intro i hi hid
  have hqueued : i.lifecycle ≠ .claimed := by
    rw [judging_eq hi hj hid, hl]
    decide
  exact ⟨Judging.isClaimedBy_of_not_claimed hqueued, Judging.isClaimedBy_of_not_claimed hqueued⟩

/-- A judging that another judgehost holds is compiled. -/
theorem desk_compile {j : Judging} (hj : j ∈ s.judgings) (hheld : j.isClaimedBy hostname = true)
    (hne : hostname ≠ host) (success : Bool) (output : String) (now : Instant) :
    (s.compile j.id success output now).desk host = s.desk host := by
  refine desk_congr rfl
    (workOf_modify (fun i => Dispatch.key_compiled i success output now) ?_) fun _ _ => rfl
  intro i hi hid
  have hnot : i.isClaimedBy host = false := by
    rw [judging_eq hi hj hid]
    exact Judging.isClaimedBy_of_ne hheld hne
  exact ⟨hnot, Judging.isClaimedBy_compiled hnot success output now⟩

/-- A judging that another judgehost holds is graded. -/
theorem desk_grade {j : Judging} (hj : j ∈ s.judgings) (hheld : j.isClaimedBy hostname = true)
    (hne : hostname ≠ host) (hle : ∀ n ∈ s.runs, n.id ≤ s.lastRun) (problemId : Int)
    (reports : List RunReport) (now : Instant) :
    (s.grade j.id problemId reports now).desk host = s.desk host := by
  have hnot : ∀ i ∈ s.judgings, i.id = j.id → i.isClaimedBy host = false := by
    intro i hi hid
    rw [judging_eq hi hj hid]
    exact Judging.isClaimedBy_of_ne hheld hne
  have hhosts : (s.recordRuns j.id now reports).judgehosts = s.judgehosts :=
    recordRuns_congr Store.judgehosts fun _ _ => rfl
  refine desk_congr (congrArg (·.find? host) hhosts)
    (workOf_modify (fun i => Grading.key_graded i _ _ _ now) fun i hi hid => ?_) fun i hi => ?_
  · exact ⟨hnot i hi hid, Judging.isClaimedBy_graded (hnot i hi hid) _ _ _ now⟩
  · obtain ⟨hi, hiheld⟩ := mem_workOf.mp hi
    refine runsOf_recordRuns_of_ne hle (fun heq => ?_) now reports
    rw [hnot i hi heq] at hiheld
    cases hiheld

/-! ## What a report goes by

A report reads the desk of its judgehost, and of the rest of the store only the
submissions, the testcases, and which judgings there are at all. -/

end Store

/-- What a report of a judgehost goes by. -/
structure Brief where
  desk : Desk
  submissions : Table Submission
  testcases : Table Testcase
  /-- The ids of all judgings. -/
  judgings : List Int

namespace Store

/-- What a report of a judgehost goes by. -/
def brief (s : Store) (host : String) : Brief where
  desk := s.desk host
  submissions := s.submissions
  testcases := s.testcases
  judgings := s.judgings.rows.map Judging.id

variable {s s' : Store} {host hostname : String}

/-- Judgings that change keep their ids. -/
theorem ids_modify {id : Int} {f : Judging → Judging} (hf : ∀ j, key (f j) = key j) :
    (s.judgings.modify id f hf).rows.map Judging.id = s.judgings.rows.map Judging.id := by
  change (s.judgings.rows.map _).map Judging.id = _
  rw [List.map_map]
  refine List.map_congr_left fun j _ => ?_
  change Judging.id (if decide (key j = id) = true then f j else j) = j.id
  split
  · exact hf j
  · rfl

theorem brief_touchJudgehost (hne : hostname ≠ host) (now : Instant) :
    (s.touchJudgehost hostname now).brief host = s.brief host := by
  rw [brief, desk_touchJudgehost hne]
  rfl

theorem brief_handOut {j : Judging} (hj : j ∈ s.judgings) (hl : j.lifecycle = .queued)
    (hne : hostname ≠ host) (now : Instant) :
    (s.handOut j.id hostname now).brief host = s.brief host := by
  rw [brief, desk_handOut hj hl hne, handOut, ids_modify]
  rfl

theorem brief_putBack {j : Judging} (hj : j ∈ s.judgings) (hl : j.lifecycle = .queued) :
    (s.putBack j.id).brief host = s.brief host := by
  rw [brief, desk_putBack hj hl, putBack, ids_modify]
  rfl

theorem brief_compile {j : Judging} (hj : j ∈ s.judgings) (hheld : j.isClaimedBy hostname = true)
    (hne : hostname ≠ host) (success : Bool) (output : String) (now : Instant) :
    (s.compile j.id success output now).brief host = s.brief host := by
  rw [brief, desk_compile hj hheld hne, compile, ids_modify]
  rfl

theorem brief_grade {j : Judging} (hj : j ∈ s.judgings) (hheld : j.isClaimedBy hostname = true)
    (hne : hostname ≠ host) (hle : ∀ n ∈ s.runs, n.id ≤ s.lastRun) (problemId : Int)
    (reports : List RunReport) (now : Instant) :
    (s.grade j.id problemId reports now).brief host = s.brief host := by
  have hsub : (s.recordRuns j.id now reports).submissions = s.submissions :=
    recordRuns_congr Store.submissions fun _ _ => rfl
  have htest : (s.recordRuns j.id now reports).testcases = s.testcases :=
    recordRuns_congr Store.testcases fun _ _ => rfl
  rw [brief, desk_grade hj hheld hne hle, grade, ids_modify]
  simp only [hsub, htest]
  rfl

end Store

end JudgeQueue
