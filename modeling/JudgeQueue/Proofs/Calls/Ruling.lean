import JudgeQueue.Proofs.Calls.Refusal
/-!
# Calls of judgehosts — how reports are ruled on

A report goes by the brief of its judgehost and by nothing else. `Brief.rule`
says what comes of it: it is refused with an error, or it is heard, and then it
is either ignored or says how the judging stands and which runs are new. That is
a judging which the judgehost holds.
-/

namespace JudgeQueue

/-- What a judgehost reports of a judging. -/
inductive Report
  | compilation (judgingId : Int) (success : Bool) (output : String)
  | runs (judgingId : Int) (reports : List RunReport)

/-- The call that a judgehost makes to report. -/
def Report.call : Report → Call Judging
  | compilation judgingId success output => .reportCompilation judgingId success output
  | runs judgingId reports => .reportRuns judgingId reports

/-! ## Rulings -/

/-- What comes of a report. -/
inductive Ruling
  | refused (e : Error)
  /-- The call is recorded. Unless the report is ignored, so are the judging as
  it stands and its new runs. -/
  | heard (row : Option Judging) (recorded : List RunReport)

namespace Ruling

/-- The call is recorded, and no more. -/
def ignored : Ruling :=
  heard none []

/-- What the judgehost is answered. -/
def answer : Ruling → Except Error (Option Judging)
  | refused e => .error e
  | heard row _ => .ok row

/-- The store after the report. -/
def apply (hostname : String) (now : Instant) : Ruling → Store → Store
  | refused _, s => s
  | heard none _, s => s.touchJudgehost hostname now
  | heard (some j) recorded, s =>
    { (s.touchJudgehost hostname now).recordRuns j.id now recorded with
      judgings := s.judgings.insert j }

end Ruling

namespace Brief

/-- Whether the judgehost may get work. -/
def admits (b : Brief) : Bool :=
  b.desk.row.any Judgehost.active

/-- The judging of an id that the judgehost holds, and its runs. -/
def held (b : Brief) (id : Int) : Option (Judging × List Run) :=
  b.desk.work.find? fun entry => entry.1.id = id

/-- The testcases of a problem in the order of grading. -/
def testcasesOf (b : Brief) (problemId : Int) : List Testcase :=
  (b.testcases.filter fun t => t.problemId = problemId).mergeSort Testcase.before

/-- A report is ignored if the judgehost may not get work or does not hold the
judging, and refused if there is no such judging. -/
def ruleOn (b : Brief) (id : Int) (onHeld : Judging → List Run → Ruling) : Ruling :=
  if b.admits then
    match b.held id with
    | some (j, runs) => onHeld j runs
    | none => if b.judgings.contains id then .ignored else .refused (.notFound (.judging id))
  else .ignored

/-- A batch is refused if one of its testcases belongs to another problem. Of
each testcase that has no run the first report is recorded. -/
def ruleOnBatch (b : Brief) (j : Judging) (runs : List Run) (reports : List RunReport)
    (now : Instant) : Ruling :=
  match b.submissions.find? j.submissionId with
  | none => .refused (.notFound (.submission j.submissionId))
  | some r =>
    let testcases := b.testcasesOf r.problemId
    match reports.find? fun p => !testcases.any fun t => t.id = p.testcaseId with
    | some p => .refused (.invalidInput (.foreignTestcase p.testcaseId r.problemId))
    | none =>
      let recorded := Grading.fresh (runs.map Run.testcaseId) reports
      -- the ids that the new runs will have are not known yet, and do not matter
      let added := recorded.map fun p => (Grading.RunReport.toRun p j.id now).recorded 0
      .heard (some (Grading.graded j (runs ++ added) testcases (Grading.fragment recorded) now))
        recorded

/-- **The ruling on a report.** -/
def rule (b : Brief) (now : Instant) : Report → Ruling
  | .compilation judgingId success output =>
    b.ruleOn judgingId fun j _ => .heard (some (Dispatch.compiled j success output now)) []
  | .runs judgingId reports =>
    match reports.find? fun r => !r.verdict.isRunVerdict with
    | some r => .refused (.invalidInput (.notRunVerdict r.verdict))
    | none => b.ruleOn judgingId fun j runs => b.ruleOnBatch j runs reports now

end Brief

/-! ## What a brief tells of its store -/

namespace Store

variable {s : Store} {host : String} {id : Int} {j : Judging}

/-- A judging that the judgehost holds is found on its desk. -/
theorem held_brief (hj : j ∈ s.judgings) (hheld : j.isClaimedBy host = true) :
    (s.brief host).held j.id = some (j, s.runsOf j.id) := by
  have hfind : (s.workOf host).find? (fun i => decide (i.id = j.id)) = some j := by
    cases hfound : (s.workOf host).find? (fun i => decide (i.id = j.id)) with
    | none =>
      have hnot := List.find?_eq_none.mp hfound j (mem_workOf.mpr ⟨hj, hheld⟩)
      exact absurd (decide_eq_true rfl) hnot
    | some i =>
      have hi := (mem_workOf.mp (List.mem_of_find?_eq_some hfound)).1
      have hid : i.id = j.id := by simpa using List.find?_some hfound
      rw [judging_eq hi hj hid]
  change ((s.workOf host).map fun i => (i, s.runsOf i.id)).find? _ = _
  rw [List.find?_map]
  exact congrArg (Option.map fun i => (i, s.runsOf i.id)) hfind

/-- No other judging is. -/
theorem held_brief_eq_none (h : ∀ i ∈ s.judgings, i.id = id → i.isClaimedBy host = false) :
    (s.brief host).held id = none := by
  refine List.find?_eq_none.mpr fun entry hentry hid => ?_
  obtain ⟨i, hi, rfl⟩ := List.mem_map.mp hentry
  obtain ⟨hmem, hheld⟩ := mem_workOf.mp hi
  rw [h i hmem (of_decide_eq_true hid)] at hheld
  cases hheld

/-- A brief tells which judgings there are. -/
theorem contains_brief : (s.brief host).judgings.contains id = s.judgings.contains id := by
  rw [Bool.eq_iff_iff, List.contains_iff_mem, Table.contains_iff]
  exact List.mem_map

/-- **The ruling on a judging** that there is: the report is heeded if the
judgehost may get work and holds it. -/
theorem ruleOn_brief (hfind : s.judgings.find? id = some j)
    (onHeld : Judging → List Run → Ruling) :
    (s.brief host).ruleOn id onHeld =
      if s.admits host then
        if j.isClaimedBy host then onHeld j (s.runsOf id) else .ignored
      else .ignored := by
  obtain ⟨hj, rfl⟩ := mem_of_find?_judging hfind
  change (if s.admits host = true then _ else _) = _
  cases hheld : j.isClaimedBy host with
  | true => rw [held_brief hj hheld, if_pos rfl]
  | false =>
    have hnone : (s.brief host).held j.id = none :=
      held_brief_eq_none fun i hi hid => by rw [judging_eq hi hj hid, hheld]
    have hcontains : (s.brief host).judgings.contains j.id = true := by
      rw [contains_brief, Table.contains, hfind]
      rfl
    rw [hnone, if_pos hcontains, if_neg Bool.false_ne_true]

/-- The ruling on a judging that there is not. -/
theorem ruleOn_brief_of_unknown (hfind : s.judgings.find? id = none)
    (onHeld : Judging → List Run → Ruling) :
    (s.brief host).ruleOn id onHeld =
      if s.admits host then .refused (.notFound (.judging id)) else .ignored := by
  have hunknown : s.judgings.contains id = false := by
    rw [Table.contains, hfind]
    rfl
  have hnone : (s.brief host).held id = none := by
    refine held_brief_eq_none fun i hi hid => ?_
    rw [Table.contains_iff.mpr ⟨i, hi, hid⟩] at hunknown
    cases hunknown
  change (if s.admits host = true then _ else _) = _
  rw [hnone, contains_brief, hunknown, if_neg Bool.false_ne_true]

end Store

/-- A judging that is held is among those on the desk. -/
theorem Brief.mem_of_held {s : Store} {host : String} {id : Int} {j : Judging} {runs : List Run}
    (h : (s.brief host).held id = some (j, runs)) : j ∈ s.workOf host ∧ j.id = id := by
  have hid : j.id = id := by simpa using List.find?_some h
  obtain ⟨i, hi, heq⟩ := List.mem_map.mp (List.mem_of_find?_eq_some h)
  cases heq
  exact ⟨hi, hid⟩

/-! ## What a ruling writes -/

namespace Judging

variable {j : Judging}

/-- A judging that is held does not get back into the queue by compiling. -/
theorem isQueued_compiled (hl : j.lifecycle = .claimed) (success : Bool) (output : String)
    (now : Instant) : (Dispatch.compiled j success output now).isQueued = false := by
  cases success with
  | true => exact decide_eq_false (by change j.lifecycle ≠ _; rw [hl]; decide)
  | false => rfl

/-- Nor by grading. -/
theorem isQueued_graded (hl : j.lifecycle = .claimed) (runs : List Run)
    (testcases : List Testcase) (text : String) (now : Instant) :
    (Grading.graded j runs testcases text now).isQueued = false := by
  unfold Grading.graded
  simp only
  split
  · rfl
  · exact decide_eq_false (by change j.lifecycle ≠ _; rw [hl]; decide)

end Judging

namespace Brief

variable {b : Brief} {id : Int} {onHeld : Judging → List Run → Ruling} {j : Judging}
  {recorded : List RunReport}

/-- A judging is written only if it is held. -/
theorem held_of_ruleOn (h : b.ruleOn id onHeld = .heard (some j) recorded) :
    ∃ i runs, b.held id = some (i, runs) ∧ onHeld i runs = .heard (some j) recorded := by
  unfold ruleOn at h
  split at h
  · split at h
    · next i runs hheld => exact ⟨i, runs, hheld, h⟩
    · split at h <;> cases h
  · cases h

end Brief

/-- What a ruling writes is a judging that its judgehost holds, and it does not
put that back in the queue. -/
def Ruling.IsAbout (ruling : Ruling) (s : Store) (host : String) : Prop :=
  ∀ j recorded, ruling = .heard (some j) recorded →
    j.isQueued = false ∧ ∃ i ∈ s.workOf host, i.id = j.id

/-- **The ruling on a report** is about what its judgehost holds. -/
theorem Store.isAbout_rule (s : Store) (host : String) (now : Instant) (report : Report) :
    ((s.brief host).rule now report).IsAbout s host := by
  intro j recorded h
  cases report with
  | compilation judgingId success output =>
    obtain ⟨i, runs, hheld, hrule⟩ := Brief.held_of_ruleOn h
    obtain ⟨hi, -⟩ := Brief.mem_of_held hheld
    have hl := Judging.lifecycle_of_isClaimedBy (mem_workOf.mp hi).2
    cases hrule
    exact ⟨Judging.isQueued_compiled hl success output now, i, hi,
      (Dispatch.key_compiled i success output now).symm⟩
  | runs judgingId reports =>
    simp only [Brief.rule] at h
    split at h
    · cases h
    · obtain ⟨i, runs, hheld, hrule⟩ := Brief.held_of_ruleOn h
      obtain ⟨hi, -⟩ := Brief.mem_of_held hheld
      have hl := Judging.lifecycle_of_isClaimedBy (mem_workOf.mp hi).2
      unfold Brief.ruleOnBatch at hrule
      split at hrule
      · cases hrule
      · simp only at hrule
        split at hrule
        · cases hrule
        · cases hrule
          exact ⟨Judging.isQueued_graded hl _ _ _ now, i, hi, (Grading.key_graded i _ _ _ now).symm⟩

end JudgeQueue
