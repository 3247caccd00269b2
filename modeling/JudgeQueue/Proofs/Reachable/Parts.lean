import JudgeQueue.Proofs.Calls.Heartbeat
import JudgeQueue.Proofs.Grading.Parts
import JudgeQueue.Proofs.Reachable.Report
/-!
# Reachable worlds — reports in parts

A judgehost may report the runs of a judging in batches as it likes, and may send
again what it does not know to have arrived. The bounds of batches show neither in
the store nor in what is told, and what is sent again has no effect.
-/

namespace JudgeQueue

open Operation

/-- **Reports that have been taken** may be sent again at any time, any number of
times and in any form: each is answered alike, and has no effect but that the
judgehost has been heard of. -/
theorem Store.HasTaken.performAll {w : World} {hostname : String} {j : Judging}
    {reports : List RunReport} (htaken : w.store.HasTaken hostname j reports) (h : w.Arises)
    {later : List (Context × List RunReport)} (hfaults : ∀ c ∈ later, c.1.faults = .none)
    (hverdict : ∀ c ∈ later, ∀ p ∈ c.2, p.verdict.isRunVerdict = true)
    (hagain : ∀ c ∈ later, ∀ p ∈ c.2, ∃ q ∈ reports, q.testcaseId = p.testcaseId) :
    performAll (later.map fun c => (reportRuns hostname j.id c.2, c.1)) w =
      ⟨later.map fun _ => .ok (if j.isFinalized then none else some j),
        { w with store := later.foldl (fun s c => s.touchJudgehost hostname c.1.now) w.store },
        []⟩ := by
  induction later generalizing w with
  | nil => rfl
  | cons c rest ih =>
    obtain ⟨hfault, hfaults⟩ := List.forall_mem_cons.mp hfaults
    obtain ⟨hrun, hverdict⟩ := List.forall_mem_cons.mp hverdict
    obtain ⟨hsame, hagain⟩ := List.forall_mem_cons.mp hagain
    have hstep : (reportRuns hostname j.id c.2).perform c.1 w =
        ⟨.ok (if j.isFinalized then none else some j),
          { w with store := w.store.touchJudgehost hostname c.1.now }, []⟩ :=
      transact_run hfault (htaken.run_reportRuns h.sound h.graded hrun hsame c.1.now)
    have hnext : World.Arises { w with store := w.store.touchJudgehost hostname c.1.now } := by
      have hsteps := h.steps (World.Steps.refl.perform (reportRuns hostname j.id c.2) c.1)
      rwa [hstep] at hsteps
    have hrest := ih (htaken.touchJudgehost c.1.now) hnext hfaults hverdict hagain
    rw [List.map_cons, Operation.performAll, hstep, hrest]
    rfl

namespace World

variable {w w₁ : World}

/-- **Sending runs again is harmless.** Once a report has been answered with the
judging, its judgehost may report on the testcases again, in any order, selection
and number and with other results. As long as nothing else happens each of these
reports is answered alike: with the judging as it was, or with nothing if the
first report has ended it. All that they leave is when the judgehost was heard
of. -/
theorem reportRuns_resent (h : w.Arises) {ctx : Context} {hostname : String} {id : Int}
    {reports : List RunReport} {j : Judging} {es : List Event}
    (hfirst : (reportRuns hostname id reports).perform ctx w = ⟨.ok (some j), w₁, es⟩)
    {later : List (Context × List RunReport)} (hfaults : ∀ c ∈ later, c.1.faults = .none)
    (hverdict : ∀ c ∈ later, ∀ p ∈ c.2, p.verdict.isRunVerdict = true)
    (hagain : ∀ c ∈ later, ∀ p ∈ c.2, ∃ q ∈ reports, q.testcaseId = p.testcaseId) :
    performAll (later.map fun c => (reportRuns hostname id c.2, c.1)) w₁ =
      ⟨later.map fun _ => .ok (if j.isFinalized then none else some j),
        { w₁ with store := later.foldl (fun s c => s.touchJudgehost hostname c.1.now) w₁.store },
        []⟩ := by
  have hanswer : ((reportRuns hostname id reports).perform ctx w).answer = .ok (some j) := by
    rw [hfirst]
  have hanswered := transact_of_ok
    (Grading.commits_reportRuns_taken h.graded.filed.run_le hostname id reports ctx.now)
    (Grading.kept_reportRuns hostname id reports ctx.now) hanswer
  have hworld : (transact ctx w (Grading.reportRuns hostname id reports ctx.now)).world = w₁ :=
    congrArg Outcome.world hfirst
  rw [hworld] at hanswered
  obtain ⟨rfl, htaken⟩ := hanswered j rfl
  have hnext : w₁.Arises := by
    have hsteps := h.steps (Steps.refl.perform (reportRuns hostname j.id reports) ctx)
    rwa [hfirst] at hsteps
  exact htaken.performAll hnext hfaults hverdict hagain

/-! ## Half of the exam

In the small exam the judgehost reports on the first problem in two parts. The
first of them leaves a testcase open, and one of its reports is repeated in the
second. -/

/-- The first part of the reports. -/
def examHalf : List RunReport :=
  examReports.take 2

/-- The second part of the reports. -/
def examRest : List RunReport :=
  examReports.drop 2

/-- What is reported again a minute later: a testcase with another result, and then
all testcases of the first part, one of them twice. -/
def examRepeats : List (Context × List RunReport) :=
  let later : Context := { contestContext with now := ⟨60 * Instant.second, false⟩ }
  [(later, [⟨3, .accepted, 0, 0, []⟩]),
   (later, [⟨3, .wrongAnswer, 0, 0, [(.run, [2])]⟩, ⟨1, .runtimeError, 0, 0, []⟩,
     ⟨3, .accepted, 0, 0, []⟩])]

/-- What is reported again once a judging of the second problem has ended. -/
def examLate : List (Context × List RunReport) :=
  [(contestContext, [⟨4, .accepted, 0, 0, []⟩])]

theorem exists_of_isFinalized {o : Outcome (Option Judging)} {b : Bool}
    (h : o.answer.toOption.join.map Judging.isFinalized = some b) :
    ∃ j, j.isFinalized = b ∧ o = ⟨.ok (some j), o.world, o.events⟩ := by
  obtain ⟨_ | _ | j, w', es⟩ := o
  · cases h
  · cases h
  · exact ⟨j, Option.some.inj h, rfl⟩

theorem known_examReports {r : Submission} (hproblem : r.problemId = 1) :
    ∀ p ∈ examHalf ++ examRest,
      ∃ t ∈ examClaimed.store.testcasesOf r.problemId, t.id = p.testcaseId := by
  have hknown : ∀ p ∈ examHalf ++ examRest, ∃ t ∈ examClaimed.store.testcases.rows,
      t.problemId = 1 ∧ t.id = p.testcaseId := by decide +kernel
  intro p hp
  obtain ⟨t, ht, htproblem, hid⟩ := hknown p hp
  exact ⟨t, Store.mem_testcasesOf.mpr ⟨ht, htproblem.trans hproblem.symm⟩, hid⟩

/-- The first part leaves the judging with the judgehost, and lists its two runs. -/
theorem reportRuns_examHalf :
    ∃ j w₁, (reportRuns "host" 3 examHalf).perform contestContext examClaimed =
        ⟨.ok (some j), w₁, []⟩ ∧ j ∈ w₁.store.judgings ∧ j.id = 3 ∧ j.isClaimed = true ∧
      j.runVerdicts = "91" := by
  let heard : World :=
    { examClaimed with store := examClaimed.store.touchJudgehost "host" contestContext.now }
  have hmay : examClaimed.store.admits "host" = true := by decide +kernel
  have hjudging : ∃ j ∈ examClaimed.store.judgings.rows, j.id = 3 ∧ j.submissionId = 3 ∧
      j.fullTest = true ∧ j.runVerdicts = "" ∧ j.isClaimedBy "host" = true := by decide +kernel
  have hsubmission : ∃ r ∈ examClaimed.store.submissions.rows, r.id = 3 ∧ r.problemId = 1 := by
    decide +kernel
  have hverdict : ∀ p ∈ examHalf, p.verdict.isRunVerdict = true := by decide
  have hblobs : heard.blobs.TakesAll := Blobs.takesAll_of_count? (by decide +kernel)
  have hnone : (heard.store.runsOf 3).map Run.testcaseId = [] := by decide +kernel
  have hrecorded : Grading.fresh [] examHalf = examHalf := by decide
  have hfragment : Grading.fragment examHalf = "91" := by decide +kernel
  -- there are three testcases, and two of them are run
  have hshort : ((heard.store.recordRuns 3 contestContext.now examHalf).runsOf 3).length <
      (heard.store.testcasesOf 1).length := by
    rw [Store.testcasesOf, List.length_mergeSort]
    decide +kernel
  obtain ⟨j, hj, hid, hsub, hfull, htext, hheld⟩ := hjudging
  obtain ⟨r, hr, hrid, hproblem⟩ := hsubmission
  obtain ⟨b, hput⟩ := hblobs (Grading.outputEntries j.id heard.store.lastRun examHalf)
  rw [← hid, ← hproblem] at hshort
  have hknown : ∀ p ∈ examHalf, ∃ t ∈ heard.store.testcasesOf r.problemId, t.id = p.testcaseId :=
    fun p hp => known_examReports hproblem p (List.mem_append_left _ hp)
  obtain ⟨i, w₁, hrun, hi, hopen⟩ := Grading.run_recordBatch_of_lt (w := heard) hj hr
    (hsub.trans hrid.symm) hknown (by rw [hid, hnone, hrecorded]) hput hfull contestContext.now
    hshort
  refine ⟨i, w₁, ?_, hi, by rw [hopen]; exact hid, ?_, by rw [hopen, hfragment, htext]; rfl⟩
  · rw [← hid]
    exact transact_run rfl
      ((Grading.run_reportRuns_of_held hmay hj hheld hverdict contestContext.now).trans hrun)
  · rw [hopen]
    exact (Bool.and_eq_true_iff.mp hheld).1

/-- The judging is answered again and again while it is open, and not any more once
it has ended. -/
theorem reportRuns_resent_exam :
    (∃ j w₁, (reportRuns "host" 3 examHalf).perform contestContext examClaimed =
        ⟨.ok (some j), w₁, []⟩ ∧
      performAll (examRepeats.map fun c => (reportRuns "host" 3 c.2, c.1)) w₁ =
        ⟨[.ok (some j), .ok (some j)],
          { w₁ with
            store := examRepeats.foldl (fun s c => s.touchJudgehost "host" c.1.now) w₁.store },
          []⟩) ∧
    ∃ j w₁ es, (reportRuns "host" 1 [⟨4, .wrongAnswer, 0, 0, []⟩]).perform contestContext
        examClaimed = ⟨.ok (some j), w₁, es⟩ ∧
      performAll (examLate.map fun c => (reportRuns "host" 1 c.2, c.1)) w₁ =
        ⟨[.ok none],
          { w₁ with
            store := examLate.foldl (fun s c => s.touchJudgehost "host" c.1.now) w₁.store },
          []⟩ := by
  have hended : ((reportRuns "host" 1 [⟨4, .wrongAnswer, 0, 0, []⟩]).perform contestContext
      examClaimed).answer.toOption.join.map Judging.isFinalized = some true := by decide +kernel
  have hfaults : ∀ c ∈ examRepeats, c.1.faults = .none :=
    List.forall_mem_cons.mpr ⟨rfl, List.forall_mem_singleton.mpr rfl⟩
  have hverdict : ∀ c ∈ examRepeats, ∀ p ∈ c.2, p.verdict.isRunVerdict = true := by decide
  have hagain : ∀ c ∈ examRepeats, ∀ p ∈ c.2, ∃ q ∈ examHalf, q.testcaseId = p.testcaseId := by
    decide
  have hfaults' : ∀ c ∈ examLate, c.1.faults = .none := List.forall_mem_singleton.mpr rfl
  have hverdict' : ∀ c ∈ examLate, ∀ p ∈ c.2, p.verdict.isRunVerdict = true := by decide
  have hagain' : ∀ c ∈ examLate, ∀ p ∈ c.2,
      ∃ q ∈ [(⟨4, .wrongAnswer, 0, 0, []⟩ : RunReport)], q.testcaseId = p.testcaseId := by decide
  obtain ⟨i, w₁, hhalf, -, -, hclaimed, -⟩ := reportRuns_examHalf
  obtain ⟨j, hj, hfirst⟩ := exists_of_isFinalized hended
  have hopen : i.isFinalized = false := by
    rw [Judging.isFinalized, Judging.isClaimed_iff.mp hclaimed]
    rfl
  have hrepeat := reportRuns_resent reachable_examClaimed.arises hhalf hfaults hverdict hagain
  have hlate := reportRuns_resent reachable_examClaimed.arises hfirst hfaults' hverdict' hagain'
  rw [hopen] at hrepeat
  rw [hj] at hlate
  exact ⟨⟨i, w₁, hhalf, hrepeat⟩, j, _, _, hfirst, hlate⟩

/-- **The bounds of batches do not show.** A judgehost reports some runs on the
judging that it holds, and later ones at the same instant. If the first part
leaves it the judging, then both parts come to what all reports at once come to:
the same store and blobs, the same events, and the same judging as it is answered
in the end. -/
theorem reportRuns_append (h : w.Arises) {ctx : Context} (hfaults : ctx.faults = .none)
    {host : Judgehost} (hhost : host ∈ w.store.judgehosts) (hactive : host.active = true)
    {j : Judging} (hj : j ∈ w.store.judgings) (hheld : j.isClaimedBy host.hostname = true)
    {r : Submission} (hr : r ∈ w.store.submissions) (hsub : j.submissionId = r.id)
    {first rest : List RunReport} (hverdict : ∀ p ∈ first ++ rest, p.verdict.isRunVerdict = true)
    (hknown : ∀ p ∈ first ++ rest, ∃ t ∈ w.store.testcasesOf r.problemId, t.id = p.testcaseId)
    {b : Blobs} (hput : w.blobs.putAll (Grading.outputEntries j.id w.store.lastRun
      (Grading.fresh ((w.store.runsOf j.id).map Run.testcaseId) (first ++ rest))) = .ok b)
    (hleft : ∃ i ∈ ((reportRuns host.hostname j.id first).perform ctx w).world.store.judgings,
      i.id = j.id ∧ i.isClaimed = true) :
    ∃ i i' w' es,
      performAll [(reportRuns host.hostname j.id first, ctx),
        (reportRuns host.hostname j.id rest, ctx)] w =
          ⟨[.ok (some i), .ok (some i')], w', es⟩ ∧
      (reportRuns host.hostname j.id (first ++ rest)).perform ctx w = ⟨.ok (some i'), w', es⟩ := by
  have hmay : w.store.admits host.hostname = true :=
    Store.admits_iff.mpr ⟨host, hhost, rfl, hactive⟩
  obtain ⟨hverdict₁, hverdict₂⟩ := List.forall_mem_append.mp hverdict
  obtain ⟨i, es, recorded, b₁, hpart, hmem, hid, hsplit⟩ := Grading.run_recordBatch_append
    (w := { w with store := w.store.touchJudgehost host.hostname ctx.now })
    h.graded.filed.run_le hj hr hsub hknown hput ctx.now
  -- the second heartbeat comes at the same instant as the first
  have htouch := w.store.touchJudgehost_grade j.id r.problemId recorded host.hostname ctx.now
    ctx.now
  have hheard : ((w.store.touchJudgehost host.hostname ctx.now).grade j.id r.problemId recorded
      ctx.now).touchJudgehost host.hostname ctx.now =
      (w.store.touchJudgehost host.hostname ctx.now).grade j.id r.problemId recorded ctx.now := by
    rw [htouch, Store.touchJudgehost_touchJudgehost]
  have hmay₁ : ((w.store.touchJudgehost host.hostname ctx.now).grade j.id r.problemId recorded
      ctx.now).admits host.hostname = true := by
    rw [Store.admits, Store.judgehosts_grade]
    exact (Store.admits_touchJudgehost host.hostname ctx.now).trans hmay
  have hfirst : (reportRuns host.hostname j.id first).perform ctx w = ⟨.ok (some i), _, es⟩ :=
    transact_run hfaults
      ((Grading.run_reportRuns_of_held hmay hj hheld hverdict₁ ctx.now).trans hpart)
  rw [hfirst] at hleft
  generalize (w.store.touchJudgehost host.hostname ctx.now).grade j.id r.problemId recorded
    ctx.now = s₁ at *
  obtain ⟨i₁, hi₁, hid₁, hclaimed⟩ := hleft
  rw [Store.judging_eq hi₁ hmem (hid₁.trans hid.symm)] at hclaimed
  obtain ⟨rfl, hserver, i', es', w', hrest, hwhole⟩ := hsplit hclaimed
  have hheld₁ : i.isClaimedBy host.hostname = true := by
    rw [Judging.isClaimedBy, hclaimed, hserver]
    exact (Bool.and_eq_true_iff.mp hheld).2
  have hsecond : (reportRuns host.hostname j.id rest).perform ctx ⟨s₁, b₁⟩ =
      ⟨.ok (some i'), w', es'⟩ := by
    have hrun := Grading.run_reportRuns_of_held (w := ⟨s₁, b₁⟩) hmay₁ hmem hheld₁ hverdict₂ ctx.now
    simp only [hheard] at hrun
    rw [← hid]
    exact transact_run hfaults (hrun.trans hrest)
  refine ⟨i, i', w', es', ?_, ?_⟩
  · simp only [performAll, hfirst, hsecond, List.nil_append, List.append_nil]
  · exact transact_run hfaults
      ((Grading.run_reportRuns_of_held hmay hj hheld hverdict ctx.now).trans hwhole)

/-- In two parts the reports on the first problem come to what they come to at
once. -/
theorem reportRuns_append_exam :
    ∃ i i' w' es,
      performAll [(reportRuns "host" 3 examHalf, contestContext),
        (reportRuns "host" 3 examRest, contestContext)] examClaimed =
          ⟨[.ok (some i), .ok (some i')], w', es⟩ ∧
      (reportRuns "host" 3 examReports).perform contestContext examClaimed =
        ⟨.ok (some i'), w', es⟩ := by
  have hfaults : contestContext.faults = .none := rfl
  have hhost : ∃ h ∈ examClaimed.store.judgehosts.rows, h.hostname = "host" ∧ h.active = true := by
    decide +kernel
  have hjudging : ∃ j ∈ examClaimed.store.judgings.rows, j.id = 3 ∧ j.submissionId = 3 ∧
      j.isClaimedBy "host" = true := by decide +kernel
  have hsubmission : ∃ r ∈ examClaimed.store.submissions.rows, r.id = 3 ∧ r.problemId = 1 := by
    decide +kernel
  have hverdict : ∀ p ∈ examHalf ++ examRest, p.verdict.isRunVerdict = true := by decide
  have hblobs : examClaimed.blobs.TakesAll := Blobs.takesAll_of_count? (by decide +kernel)
  obtain ⟨host, hhost, hname, hactive⟩ := hhost
  obtain ⟨j, hj, hid, hsub, hheld⟩ := hjudging
  obtain ⟨r, hr, hrid, hproblem⟩ := hsubmission
  obtain ⟨b, hput⟩ := hblobs (Grading.outputEntries j.id examClaimed.store.lastRun
    (Grading.fresh ((examClaimed.store.runsOf j.id).map Run.testcaseId) (examHalf ++ examRest)))
  have hleft : ∃ i ∈ ((reportRuns host.hostname j.id examHalf).perform contestContext
      examClaimed).world.store.judgings, i.id = j.id ∧ i.isClaimed = true := by
    obtain ⟨i, w₁, hhalf, hi, hsame, hclaimed, -⟩ := reportRuns_examHalf
    rw [hname, hid, hhalf]
    exact ⟨i, hi, hsame, hclaimed⟩
  have hsplit := reportRuns_append reachable_examClaimed.arises hfaults hhost hactive hj
    (hname ▸ hheld) hr (hsub.trans hrid.symm) hverdict (known_examReports hproblem) hput hleft
  rwa [hname, hid] at hsplit

end World

end JudgeQueue
