import JudgeQueue.Proofs.Grading.Run
import JudgeQueue.Proofs.Reachable.Verdicts
/-!
# Reachable worlds — a judgehost at work

A judgehost that holds a judging asks for a testcase, reports its run, and does
so again until it is handed none. After some turns the testcases that were left
first have runs and the others are still left, and the judging is held or its
runs decide it. One turn keeps this, so all turns do.
-/

namespace JudgeQueue

/-- One turn of a judgehost: when it asks for a testcase, and when it reports
which run of it. -/
structure Turn where
  askedAt : Instant
  reportedAt : Instant
  verdict : Verdict
  executeTime : Float := 0
  executeMemory : Int := 0
  outputs : List (RunOutputKind × Bytes) := []
  isRunVerdict : verdict.isRunVerdict = true := by decide

/-- The report of a testcase. -/
def Turn.report (u : Turn) (t : Testcase) : RunReport :=
  ⟨t.id, u.verdict, u.executeTime, u.executeMemory, u.outputs⟩

@[simp] theorem Turn.report_verdict (u : Turn) (t : Testcase) : (u.report t).verdict = u.verdict :=
  rfl

@[simp] theorem Turn.report_testcaseId (u : Turn) (t : Testcase) :
    (u.report t).testcaseId = t.id :=
  rfl

namespace World

/-- A judgehost works on a judging, a turn at a time, until it is handed no
testcase or its turns are over. Answers the testcases that it was handed, each
with the turn that it took. -/
def work (scripts : DefaultScripts) (hostname : String) (judgingId : Int) :
    List Turn → World → List (Testcase × Turn) × World
  | [], w => ([], w)
  | u :: rest, w =>
    let asked := (Operation.claimTestcase hostname judgingId).perform ⟨u.askedAt, scripts, .none⟩ w
    match asked.answer with
    | .ok (some t) =>
      let told := (Operation.reportRuns hostname judgingId [u.report t]).perform
        ⟨u.reportedAt, scripts, .none⟩ asked.world
      let (done, w') := work scripts hostname judgingId rest told.world
      ((t, u) :: done, w')
    | _ => ([], asked.world)

/-- A judgehost that is known and switched on, and a judging of a problem that
may be judged and has testcases. -/
structure Assigned (w : World) (hostname : String) (j : Judging) (r : Submission) (p : Problem) :
    Prop where
  arises : w.Arises
  host : ∃ h ∈ w.store.judgehosts, h.hostname = hostname ∧ h.active = true
  judging : j ∈ w.store.judgings
  submission : r ∈ w.store.submissions
  submissionId : j.submissionId = r.id
  problem : p ∈ w.store.problems
  problemId : p.id = r.problemId
  allowed : p.allowJudge = true
  testcases : w.store.testcasesOf r.problemId ≠ []

/-- The judgehost holds the judging, or it has ended because its runs decide
it. -/
def Stands (w : World) (hostname : String) (j : Judging) : Prop :=
  j.isClaimedBy hostname = true ∨ j.lifecycle = .finalized ∧ w.store.IsDecided j

end World

/-- A testcase has a run with this verdict within a judging. -/
def Store.HasRun (s : Store) (judgingId testcaseId : Int) (v : Verdict) : Prop :=
  ∃ n ∈ s.runs, n.judgingId = judgingId ∧ n.testcaseId = testcaseId ∧ n.verdict = v

theorem Store.exists_hasRun {s : Store} {judgingId testcaseId : Int} :
    (∃ n ∈ s.runs, n.judgingId = judgingId ∧ n.testcaseId = testcaseId) ↔
      ∃ v, s.HasRun judgingId testcaseId v := by
  constructor
  · rintro ⟨n, hn, hid, htest⟩
    exact ⟨n.verdict, n, hn, hid, htest, rfl⟩
  · rintro ⟨v, n, hn, hid, htest, -⟩
    exact ⟨n, hn, hid, htest⟩

namespace World

/-- What has become of a judging after some turns: the first testcases that
were left have the runs that were reported, and the others are still left.
Output of runs can still be kept. -/
structure Worked (w : World) (hostname : String) (j : Judging) (r : Submission) (p : Problem)
    (done : List (Testcase × Turn)) (w' : World) (j' : Judging) : Prop where
  assigned : w'.Assigned hostname j' r p
  takesAll : w'.blobs.TakesAll
  stands : w'.Stands hostname j'
  id_eq : j'.id = j.id
  fullTest_eq : j'.fullTest = j.fullTest
  missing : w.store.missing j r.problemId =
    done.map Prod.fst ++ w'.store.missing j' r.problemId
  hasRun_iff : ∀ id v, w'.store.HasRun j'.id id v ↔
    w.store.HasRun j.id id v ∨ ∃ e ∈ done, e.1.id = id ∧ e.2.verdict = v
  accepted : j.fullTest = false → ∀ e ∈ done.dropLast, e.2.verdict = .accepted

variable {w w₁ w₂ : World} {hostname : String} {j j₁ j₂ : Judging} {r : Submission} {p : Problem}

/-! ## Standing -/

/-- A judging that is held is not decided. -/
theorem Assigned.not_isDecided (h : w.Assigned hostname j r p)
    (hheld : j.isClaimedBy hostname = true) : ¬ w.store.IsDecided j :=
  (h.arises.graded.rated j h.judging).undecided (Judging.lifecycle_of_isClaimedBy hheld)

/-- So a judging has ended exactly if its runs decide it. -/
theorem Assigned.finalized_iff (h : w.Assigned hostname j r p) (hstands : w.Stands hostname j) :
    j.lifecycle = .finalized ↔ w.store.IsDecided j := by
  rcases hstands with hheld | ⟨hfin, hdecided⟩
  · refine iff_of_false ?_ (h.not_isDecided hheld)
    rw [Judging.lifecycle_of_isClaimedBy hheld]
    decide
  · exact iff_of_true hfin hdecided

/-- A judgehost that calls stays known and switched on. -/
theorem exists_touched {s : Store} (h : ∃ h ∈ s.judgehosts, h.hostname = hostname ∧ h.active = true)
    (now : Instant) : ∃ h ∈ (s.touchJudgehost hostname now).judgehosts,
      h.hostname = hostname ∧ h.active = true := by
  obtain ⟨host, hhost, hname, hactive⟩ := h
  refine ⟨{ host with pollTime := some now }, ?_, hname, hactive⟩
  rw [Store.touchJudgehost, Table.mem_modify]
  exact .inl ⟨host, hhost, hname, rfl⟩

theorem Worked.refl (h : w.Assigned hostname j r p) (hputs : w.blobs.TakesAll)
    (hstands : w.Stands hostname j) : w.Worked hostname j r p [] w j where
  assigned := h
  takesAll := hputs
  stands := hstands
  id_eq := rfl
  fullTest_eq := rfl
  missing := rfl
  hasRun_iff _ _ := by simp
  accepted _ := by simp

/-- **Turns after turns** are turns, if the judging was still held in
between. -/
theorem Worked.trans {done done' : List (Testcase × Turn)}
    (h : w.Worked hostname j r p done w₁ j₁) (h' : w₁.Worked hostname j₁ r p done' w₂ j₂)
    (hheld : done' ≠ [] → j₁.isClaimedBy hostname = true) :
    w.Worked hostname j r p (done ++ done') w₂ j₂ := by
  refine ⟨h'.assigned, h'.takesAll, h'.stands, h'.id_eq.trans h.id_eq,
    h'.fullTest_eq.trans h.fullTest_eq, ?_, fun id v => ?_, fun hpartial => ?_⟩
  · rw [h.missing, h'.missing, List.map_append, List.append_assoc]
  · rw [h'.hasRun_iff, h.hasRun_iff]
    simp only [List.mem_append, or_and_right, exists_or, or_assoc]
  · by_cases hnil : done' = []
    · rw [hnil, List.append_nil]
      exact h.accepted hpartial
    · rw [List.dropLast_append_of_ne_nil hnil]
      intro e he
      rcases List.mem_append.mp he with he | he
      · -- a run that had failed would have ended the judging
        by_contra hfailed
        have hrun : w₁.store.HasRun j₁.id e.1.id e.2.verdict :=
          (h.hasRun_iff _ _).mpr (.inr ⟨e, he, rfl, rfl⟩)
        obtain ⟨n, hn, hid, -, hv⟩ := hrun
        refine h.assigned.not_isDecided (hheld hnil) (.inl ⟨h.fullTest_eq.trans hpartial, ?_⟩)
        exact ⟨n, hn, hid, hv ▸ hfailed⟩
      · exact h'.accepted (h.fullTest_eq.trans hpartial) e he

/-! ## Asking -/

/-- **Asking for a testcase of a judging that is held** answers the first that
is left. -/
theorem Assigned.perform_claimTestcase (h : w.Assigned hostname j r p)
    (hheld : j.isClaimedBy hostname = true) (ctx : Context) (hfaults : ctx.faults = .none) :
    (Operation.claimTestcase hostname j.id).perform ctx w =
      ⟨.ok (w.store.missing j r.problemId).head?,
        { w with store := w.store.touchJudgehost hostname ctx.now }, []⟩ := by
  obtain ⟨host, hhost, rfl, hactive⟩ := h.host
  have hrun := Dispatch.run_claimTestcase hhost hactive h.judging hheld h.submission h.submissionId
    h.problem h.problemId h.allowed ctx.now
  have hnext : ¬ (j.fullTest = false ∧ w.store.Failed j) :=
    fun hfailed => h.not_isDecided hheld (.inl hfailed)
  rw [Store.nextTestcase_eq hnext] at hrun
  exact transact_run hfaults hrun

/-- Asking for one of a judging that has ended answers none. -/
theorem Assigned.perform_claimTestcase_of_finalized (h : w.Assigned hostname j r p)
    (hfin : j.lifecycle = .finalized) (ctx : Context) (hfaults : ctx.faults = .none) :
    (Operation.claimTestcase hostname j.id).perform ctx w =
      ⟨.ok none, { w with store := w.store.touchJudgehost hostname ctx.now }, []⟩ := by
  obtain ⟨host, hhost, rfl, hactive⟩ := h.host
  have hheld : j.isClaimedBy host.hostname = false := by
    rw [Judging.isClaimedBy, Judging.isClaimed, hfin]
    rfl
  exact transact_run hfaults (Dispatch.run_claimTestcase_of_not_held hhost hactive h.judging hheld
    ctx.now)

/-- Asking changes nothing that the work depends on. -/
theorem Assigned.touched (h : w.Assigned hostname j r p) {ctx : Context}
    {answer : Except Error (Option Testcase)}
    (hasked : (Operation.claimTestcase hostname j.id).perform ctx w =
      ⟨answer, { w with store := w.store.touchJudgehost hostname ctx.now }, []⟩) :
    Assigned { w with store := w.store.touchJudgehost hostname ctx.now } hostname j r p := by
  have harises := h.arises.steps (Steps.refl.perform (.claimTestcase hostname j.id) ctx)
  rw [hasked] at harises
  exact { h with arises := harises, host := exists_touched h.host ctx.now }

/-! ## Reporting -/

/-- The runs after one report are those before and one of the testcase. -/
theorem hasRun_grade {s : Store} (hle : ∀ n ∈ s.runs, n.id ≤ s.lastRun) {q : RunReport}
    {problemId : Int} {now : Instant} (id : Int) (v : Verdict) :
    (s.grade j.id problemId [q] now).HasRun j.id id v ↔
      s.HasRun j.id id v ∨ q.testcaseId = id ∧ q.verdict = v := by
  have hmem : ∀ n, n ∈ (s.grade j.id problemId [q] now).runs ↔
      n = (Grading.RunReport.toRun q j.id now).recorded (s.lastRun + 1) ∨ n ∈ s.runs :=
    fun n => Store.mem_runs_insertRun hle
  unfold Store.HasRun
  constructor
  · rintro ⟨n, hn, hid, htest, hv⟩
    rcases (hmem n).mp hn with rfl | hn
    · exact .inr ⟨htest, hv⟩
    · exact .inl ⟨n, hn, hid, htest, hv⟩
  · rintro (⟨n, hn, hid, htest, hv⟩ | ⟨htest, hv⟩)
    · exact ⟨n, (hmem n).mpr (.inr hn), hid, htest, hv⟩
    · exact ⟨_, (hmem _).mpr (.inl rfl), rfl, htest, hv⟩

/-- The report of a testcase that is left is a batch, also once the judgehost
has been heard of. -/
theorem Assigned.isBatch (h : w.Assigned hostname j r p) (hheld : j.isClaimedBy hostname = true)
    {t : Testcase} (ht : t ∈ w.store.missing j r.problemId) (u : Turn) (now : Instant) :
    (w.store.touchJudgehost hostname now).IsBatch j r [u.report t] := by
  obtain ⟨ht, hnew⟩ := Store.mem_missing.mp ht
  refine ⟨h.judging, Judging.lifecycle_of_isClaimedBy hheld, h.submission, h.submissionId, ?_, ?_,
    fun q hq n hn => ?_, by simp⟩
  · simpa using u.isRunVerdict
  · simpa using ⟨t, ht, rfl⟩
  · obtain ⟨hn, hid⟩ := Store.mem_runsOf.mp hn
    rw [List.mem_singleton.mp hq]
    exact hnew n hn hid

/-- **Reporting a testcase that is left** records its run and grades the
judging. -/
theorem Assigned.perform_reportRuns (h : w.Assigned hostname j r p) (hputs : w.blobs.TakesAll)
    (hheld : j.isClaimedBy hostname = true) {t : Testcase}
    (ht : t ∈ w.store.missing j r.problemId) (u : Turn) (ctx : Context)
    (hfaults : ctx.faults = .none) :
    ∃ (b : Blobs) (answer : Option Judging) (es : List Event), b.TakesAll ∧
      (Operation.reportRuns hostname j.id [u.report t]).perform ctx w =
        ⟨.ok answer, ⟨(w.store.touchJudgehost hostname ctx.now).grade j.id r.problemId
          [u.report t] ctx.now, b⟩, es⟩ := by
  have hbatch := h.isBatch hheld ht u ctx.now
  obtain ⟨host, hhost, rfl, hactive⟩ := h.host
  -- the testcase has no run yet, so its report is recorded
  have hrecorded : Grading.fresh ((w.store.runsOf j.id).map Run.testcaseId) [u.report t] =
      [u.report t] := by
    have hseen : t.id ∉ (w.store.runsOf j.id).map Run.testcaseId := by
      rw [List.mem_map]
      rintro ⟨n, hn, hid⟩
      exact hbatch.fresh _ List.mem_cons_self n hn hid
    rw [Grading.fresh, if_neg (by simpa using hseen)]
    rfl
  obtain ⟨b, hput, hb⟩ := hputs.putAll
    (Grading.outputEntries j.id w.store.lastRun [u.report t])
  exact ⟨b, _, _, hb, transact_run hfaults (Grading.run_reportRuns hhost hactive h.judging hheld
    h.submission h.submissionId hbatch.verdict hbatch.known hrecorded hput ctx.now)⟩

/-- **Reporting the testcase that was handed out** leaves the others, and ends
the judging exactly if its runs decide it now. -/
theorem Assigned.reported (h : w.Assigned hostname j r p) (hputs : w.blobs.TakesAll)
    (hheld : j.isClaimedBy hostname = true) {t : Testcase} {rest : List Testcase}
    (hmissing : w.store.missing j r.problemId = t :: rest) (u : Turn) (ctx : Context)
    (hfaults : ctx.faults = .none) :
    ∃ j', w.Worked hostname j r p [(t, u)]
      ((Operation.reportRuns hostname j.id [u.report t]).perform ctx w).world j' := by
  have harises := h.arises.steps (Steps.refl.perform (.reportRuns hostname j.id [u.report t]) ctx)
  have ht : t ∈ w.store.missing j r.problemId := hmissing ▸ List.mem_cons_self
  obtain ⟨b, answer, es, hb, hperform⟩ := h.perform_reportRuns hputs hheld ht u ctx hfaults
  rw [hperform] at harises ⊢
  have hc : Change ctx.now w.store [] _ := .touchJudgehost hostname
  have hgraded := h.arises.sound.graded_change h.arises.graded hc
  obtain ⟨j', hj', ⟨hid, hsub, hfull⟩, hopen, hended⟩ :=
    (h.isBatch hheld ht u ctx.now).exists_graded (h.arises.sound.change hc) hgraded ctx.now
  have hruns : ∀ id v, ((w.store.touchJudgehost hostname ctx.now).grade j.id r.problemId
      [u.report t] ctx.now).HasRun j.id id v ↔
        w.store.HasRun j.id id v ∨ t.id = id ∧ u.verdict = v :=
    fun id v => hasRun_grade hgraded.filed.run_le id v
  refine ⟨j', ?assigned, hb, ?stands, hid, hfull, ?missing, ?hasRun, ?accepted⟩
  case assigned =>
    exact ⟨harises, exists_touched h.host ctx.now, hj', h.submission,
      hsub.trans h.submissionId, h.problem, h.problemId, h.allowed, h.testcases⟩
  case stands =>
    by_cases hfin : j'.lifecycle = .finalized
    · exact .inr ⟨hfin, hended.mp hfin⟩
    · -- it has not ended, so the same judgehost holds it
      obtain ⟨hl, hserver⟩ := hopen hfin
      rw [Judging.isClaimedBy, Bool.and_eq_true] at hheld
      refine .inl ?_
      rw [Judging.isClaimedBy, hserver, Judging.isClaimed_iff.mpr hl, hheld.2]
      rfl
  case missing =>
    -- the new run is the only one, and its testcase was the first that was left
    have hrest : ((w.store.touchJudgehost hostname ctx.now).grade j.id r.problemId [u.report t]
        ctx.now).missing j' r.problemId = rest := by
      refine Store.missing_of_cons hmissing rfl fun id => ?_
      rw [Store.exists_hasRun, Store.exists_hasRun, hid, exists_congr (hruns id), exists_or,
        or_comm]
      refine or_congr_left ?_
      constructor
      · rintro ⟨v, htest, -⟩
        exact htest.symm
      · exact fun htest => ⟨_, htest.symm, rfl⟩
    rw [hmissing, hrest]
    rfl
  case hasRun =>
    intro id v
    rw [hid, hruns]
    simp only [List.mem_singleton, exists_eq_left]
  case accepted => simp

/-! ## Turn by turn -/

/-- Asking is no turn yet. -/
theorem Assigned.asked (h : w.Assigned hostname j r p) (hputs : w.blobs.TakesAll)
    (hstands : w.Stands hostname j) {ctx : Context} {answer : Except Error (Option Testcase)}
    (hasked : (Operation.claimTestcase hostname j.id).perform ctx w =
      ⟨answer, { w with store := w.store.touchJudgehost hostname ctx.now }, []⟩) :
    w.Worked hostname j r p []
      { w with store := w.store.touchJudgehost hostname ctx.now } j where
  assigned := h.touched hasked
  takesAll := hputs
  stands := hstands
  id_eq := rfl
  fullTest_eq := rfl
  missing := rfl
  hasRun_iff id v := by
    simp only [List.not_mem_nil, false_and, exists_false, or_false]
    rfl
  accepted _ := by simp

/-- A turn in which a testcase is handed out is followed by the others. -/
theorem work_cons {judgingId : Int} {scripts : DefaultScripts} {u : Turn} {rest : List Turn}
    {t : Testcase} {es : List Event}
    (hasked : (Operation.claimTestcase hostname judgingId).perform ⟨u.askedAt, scripts, .none⟩ w =
      ⟨.ok (some t), w₁, es⟩)
    (htold : ((Operation.reportRuns hostname judgingId [u.report t]).perform
      ⟨u.reportedAt, scripts, .none⟩ w₁).world = w₂) :
    work scripts hostname judgingId (u :: rest) w =
      ((t, u) :: (work scripts hostname judgingId rest w₂).1,
        (work scripts hostname judgingId rest w₂).2) := by
  rw [work, hasked]
  simp only [htold]

/-- A judging that has ended gives no more work. -/
theorem Assigned.work_of_finalized (h : w.Assigned hostname j r p)
    (hfin : j.lifecycle = .finalized) (scripts : DefaultScripts) (u : Turn) (rest : List Turn) :
    work scripts hostname j.id (u :: rest) w =
      ([], { w with store := w.store.touchJudgehost hostname u.askedAt }) := by
  rw [work, h.perform_claimTestcase_of_finalized hfin _ rfl]

/-- So if there is more work, the judging is still held. -/
theorem Assigned.held_of_work (h : w.Assigned hostname j r p) (hstands : w.Stands hostname j)
    {scripts : DefaultScripts} {turns : List Turn}
    (hmore : (work scripts hostname j.id turns w).1 ≠ []) : j.isClaimedBy hostname = true := by
  refine hstands.resolve_right fun hended => hmore ?_
  cases turns with
  | nil => rfl
  | cons u rest => rw [h.work_of_finalized hended.1]

/-- **The work goes on** until the judging has ended or the turns are over. -/
theorem Assigned.worked (h : w.Assigned hostname j r p) (hputs : w.blobs.TakesAll)
    (hstands : w.Stands hostname j) (scripts : DefaultScripts) (turns : List Turn) :
    ∃ j', w.Worked hostname j r p (work scripts hostname j.id turns w).1
        (work scripts hostname j.id turns w).2 j' ∧
      (j'.lifecycle ≠ .finalized →
        (work scripts hostname j.id turns w).1.length = turns.length) := by
  induction turns generalizing w j with
  | nil => exact ⟨j, .refl h hputs hstands, fun _ => rfl⟩
  | cons u rest ih =>
    rcases hstands with hheld | ⟨hfin, hdecided⟩
    · -- a testcase is handed out, and its run is reported
      have hasked := h.perform_claimTestcase hheld ⟨u.askedAt, scripts, .none⟩ rfl
      obtain ⟨t, left, hmissing⟩ := List.exists_cons_of_ne_nil
        (Store.missing_ne_nil h.submission h.submissionId h.testcases (h.not_isDecided hheld))
      rw [hmissing, List.head?_cons] at hasked
      have hfirst := h.asked hputs (.inl hheld) hasked
      obtain ⟨j₁, htold⟩ := hfirst.assigned.reported hputs hheld hmissing u
        ⟨u.reportedAt, scripts, .none⟩ rfl
      have hturn := hfirst.trans htold fun _ => hheld
      rw [work_cons hasked rfl]
      generalize ((Operation.reportRuns hostname j.id [u.report t]).perform
        ⟨u.reportedAt, scripts, .none⟩ _).world = w₁ at htold hturn ⊢
      obtain ⟨j₂, hrest, hover⟩ := ih htold.assigned htold.takesAll htold.stands
      have hmore := @Assigned.held_of_work _ _ _ _ _ htold.assigned htold.stands scripts rest
      rw [htold.id_eq] at hrest hover hmore
      exact ⟨j₂, hturn.trans hrest hmore, fun hne => congrArg Nat.succ (hover hne)⟩
    · have hasked := h.perform_claimTestcase_of_finalized hfin ⟨u.askedAt, scripts, .none⟩
        rfl
      rw [h.work_of_finalized hfin]
      exact ⟨j, h.asked hputs (.inr ⟨hfin, hdecided⟩) hasked, fun hne => absurd hfin hne⟩

end World

end JudgeQueue
