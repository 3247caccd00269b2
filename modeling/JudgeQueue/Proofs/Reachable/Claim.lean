import JudgeQueue.Proofs.Dispatch.Claim
import JudgeQueue.Proofs.Grading.Next
import JudgeQueue.Proofs.Reachable.Course
/-!
# Reachable worlds — claims past what is broken

A judging whose scripts are missing does not keep others from being handed out.
It is put back with its problem or its language switched off, and the claim goes
on to the first judging that can be graded. What is switched off on the way has
no part in that one.
-/

namespace JudgeQueue

open Transaction

/-- A judgehost is handed the first job of a store that has all its scripts. All
rows are those of the store after the claim, and the testcases come in the order
of grading. -/
structure Payload.Serves (payload : Payload) (s s' : Store) (defaults : DefaultScripts)
    (hostname : String) (now : Instant) : Prop where
  first : ∃ job ∈ s.jobs, s.isHealthy defaults job = true ∧
    payload.judging = job.judging.claimedBy hostname now ∧
    ∀ other ∈ s.jobs, s.isHealthy defaults other = true → job.judging.id ≤ other.judging.id
  judging : payload.judging ∈ s'.judgings
  submission : payload.submission ∈ s'.submissions ∧
    payload.submission.id = payload.judging.submissionId
  problem : payload.problem ∈ s'.problems ∧ payload.problem.id = payload.submission.problemId
  language : payload.language ∈ s'.languages ∧ payload.language.id = payload.submission.languageId
  testcases : ∀ t, t ∈ payload.testcases ↔ t ∈ s'.testcases ∧ t.problemId = payload.problem.id
  sorted : payload.testcases.Pairwise Testcase.Precedes
  compile : ∃ e ∈ s'.executables, e.id = payload.language.compileScript ∧
    payload.compileScript = ⟨e.id, e.contentHash⟩
  run : ∃ e ∈ s'.executables, e.id = payload.problem.runScript.getD defaults.run ∧
    payload.runScript = ⟨e.id, e.contentHash⟩
  compare : ∃ e ∈ s'.executables, e.id = payload.problem.compareScript.getD defaults.compare ∧
    payload.compareScript = ⟨e.id, e.contentHash⟩

namespace Store

variable {s s' : Store} {p : Pass} {defaults : DefaultScripts} {hostname : String} {now : Instant}

/-- The store after a pass: its jobs have been put back, and what it hands out is
held. -/
def Claims (s s' : Store) (p : Pass) (hostname : String) (now : Instant) : Prop :=
  ∃ s₁, s.PutsBack s₁ p.setBacks now ∧
    s' = match p.handedOut with
      | none => s₁
      | some (job, _) => s₁.handOut job.judging.id hostname now

/-- Nothing is handed out only if nothing is healthy. -/
theorem payload_eq_none_iff :
    (s.claimPass defaults).payload s hostname now = none ↔
      ∀ job ∈ s.jobs, s.isHealthy defaults job = false := by
  have hfirst := s.handedOut_claimPass defaults
  rw [Pass.payload, Option.map_eq_none_iff, ← Option.map_eq_none_iff (f := Prod.fst), hfirst,
    List.find?_eq_none]
  simp only [Bool.not_eq_true]

/-- The first healthy job has the lowest id of them. -/
theorem le_of_find?_jobs {job other : Job} (h : s.jobs.find? (s.isHealthy defaults) = some job)
    (hother : other ∈ s.jobs) (hwell : s.isHealthy defaults other = true) :
    job.judging.id ≤ other.judging.id := by
  obtain ⟨-, before, after, hjobs, hbefore⟩ := List.find?_eq_some_iff_append.mp h
  have hsorted := s.pairwise_jobs
  rw [hjobs] at hother hsorted
  rcases List.mem_append.mp hother with hmem | hmem
  · have hnot := hbefore other hmem
    rw [hwell] at hnot
    cases hnot
  · rcases List.mem_cons.mp hmem with rfl | hmem
    · exact Int.le_refl _
    · have hafter := (List.pairwise_append.mp hsorted).2.1
      exact Int.le_of_lt (List.rel_of_pairwise_cons hafter hmem)

/-- **What is handed out** is the first healthy job, with rows that no job that
was put back has a part in. -/
theorem Claims.serves (h : s.Claims s' (s.claimPass defaults) hostname now) {payload : Payload}
    (hpayload : (s.claimPass defaults).payload s hostname now = some payload) :
    payload.Serves s s' defaults hostname now := by
  obtain ⟨s₁, hback, hs'⟩ := h
  obtain ⟨⟨job, scripts⟩, hout, hpayload⟩ := Option.map_eq_some_iff.mp hpayload
  subst hpayload
  rw [hout] at hs'
  change s' = s₁.handOut job.judging.id hostname now at hs'
  obtain ⟨hmem, hscripts⟩ := Dispatch.find_of_handedOut hout
  obtain ⟨hjudging, hjob⟩ := mem_jobs.mp hmem
  obtain ⟨-, -, hr, ⟨hp, -⟩, hl, -⟩ := job?_eq_some_iff.mp hjob
  have hfind : s.jobs.find? (s.isHealthy defaults) = some job := by
    rw [← handedOut_claimPass, hout]
    rfl
  have hhealthy : s.isHealthy defaults job = true := List.find?_some hfind
  -- neither its problem nor its language is blamed for another job
  have hspared : ∀ b ∈ (s.claimPass defaults).setBacks,
      b.missing.owner ≠ .language job.language.id ∧ b.missing.owner ≠ .problem job.problem.id := by
    intro b hb
    obtain ⟨hbjob, hmissing, -⟩ := Dispatch.mem_setBacks (s.blamesOwn_scriptsOf defaults) hb
    have hown := isOf_of_isHealthy hbjob hmem hmissing hhealthy
    rwa [Job.isOf, Bool.or_eq_false_iff, decide_eq_false_iff_not, decide_eq_false_iff_not] at hown
  have hproblem : job.problem ∈ s₁.problems := by
    rw [hback.problems]
    refine Table.mem_update.mpr ⟨job.problem, Table.mem_of_find? hp, ?_⟩
    rw [if_neg]
    simpa using fun b hb => (hspared b hb).2
  have hlanguage : job.language ∈ s₁.languages := by
    rw [hback.languages]
    refine Table.mem_update.mpr ⟨job.language, Table.mem_of_find? hl, ?_⟩
    rw [if_neg]
    simpa using fun b hb => (hspared b hb).1
  have hframe := hback.frame
  have hexecutables : s'.executables = s.executables := by rw [hs', hframe]; rfl
  have htestcases : s'.testcases = s.testcases := by rw [hs', hframe]; rfl
  obtain ⟨hcompile, hrun, hcompare⟩ := scriptsOf_eq_ok hscripts
  exact {
    first := ⟨job, hmem, hhealthy, rfl, fun _ hother hwell => le_of_find?_jobs hfind hother hwell⟩
    judging := by
      have hsame : s₁.judgings = s.judgings := by rw [hframe]
      exact hs' ▸ mem_handOut (hsame ▸ hjudging) hostname now
    submission := by
      have hsame : s'.submissions = s.submissions := by rw [hs', hframe]; rfl
      exact ⟨hsame ▸ Table.mem_of_find? hr, Table.key_of_find? hr⟩
    problem := ⟨hs' ▸ hproblem, Table.key_of_find? hp⟩
    language := ⟨hs' ▸ hlanguage, Table.key_of_find? hl⟩
    testcases := fun t => by
      rw [htestcases]
      exact mem_testcasesOf
    sorted := s.pairwise_testcasesOf _
    compile := hexecutables ▸ hcompile
    run := hexecutables ▸ hrun
    compare := hexecutables ▸ hcompare }

end Store

namespace World

variable {w : World}

/-- How a claim ends that comes to a pass. -/
structure ClaimEnds (w : World) (ctx : Context) (hostname : String) (p : Pass) (s' : Store) :
    Prop where
  outcome : (Operation.claimJudging hostname).perform ctx w =
    ⟨.ok (p.payload w.store hostname ctx.now), { w with store := s' }, p.events w.store hostname⟩
  store : (w.store.touchJudgehost hostname ctx.now).Claims s' p hostname ctx.now
  bounded : p.setBacks.length ≤ w.store.enabledTargets
  enough : ∀ rounds, w.store.enabledTargets < rounds →
    transact ctx w (Dispatch.claimJudging ctx.scripts rounds hostname ctx.now) =
      (Operation.claimJudging hostname).perform ctx w
  none_iff : p.payload w.store hostname ctx.now = none ↔
    ∀ job ∈ w.store.jobs, w.store.isHealthy ctx.scripts job = false
  serves : ∀ payload, p.payload w.store hostname ctx.now = some payload →
    payload.Serves w.store s' ctx.scripts hostname ctx.now

/-- **A claim is one pass over the queue.** A judgehost that is known and
switched on is handed the first job that has all its scripts, and nothing only if
there is none. -/
theorem claimJudging_passes (h : w.Arises) {ctx : Context} (hfaults : ctx.faults = .none)
    {host : Judgehost} (hhost : host ∈ w.store.judgehosts) (hactive : host.active = true) :
    ∃ s', w.ClaimEnds ctx host.hostname (w.store.claimPass ctx.scripts) s' := by
  have hidle : ∀ j ∈ w.store.judgings, j.lifecycle = .queued → j.unclaimed = j :=
    fun j hj hl => Judging.unclaimed_eq hl (h.onCourse.shaped j hj)
  have hbounded := w.store.length_setBacks_le ctx.scripts
  -- the judgehost is heard of first, which has no part in the pass
  let w₁ : World := { w with store := w.store.touchJudgehost host.hostname ctx.now }
  have hclaim : ∀ rounds, w.store.enabledTargets < rounds →
      transact ctx w (Dispatch.claimJudging ctx.scripts rounds host.hostname ctx.now) =
        ⟨.ok ((w.store.claimPass ctx.scripts).payload w.store host.hostname ctx.now),
          { w with store := w₁.store.claim (w.store.claimPass ctx.scripts) host.hostname ctx.now },
          (w.store.claimPass ctx.scripts).events w.store host.hostname⟩ := by
    intro rounds hrounds
    refine transact_run hfaults ?_
    have hrun := Dispatch.run_claimRounds (w := w₁) ctx.scripts hidle
      (Nat.lt_of_le_of_lt hbounded hrounds) [] host.hostname ctx.now
    rw [Dispatch.claimJudging, run_bind (run_heartbeat_of_active hhost hactive ctx.now), if_pos rfl]
    exact hrun
  have hperform := hclaim (w.store.enabledTargets + 1) (Nat.lt_succ_self _)
  have hclaims : w₁.store.Claims
      (w₁.store.claim (w.store.claimPass ctx.scripts) host.hostname ctx.now)
      (w.store.claimPass ctx.scripts) host.hostname ctx.now := by
    refine ⟨w₁.store.setBackAll (w.store.claimPass ctx.scripts).setBacks ctx.now,
      Store.putsBack_setBackAll h.onCourse.error_le fun b hb => ?_, ?_⟩
    · obtain ⟨-, hmissing, -⟩ := Dispatch.mem_setBacks (w.store.blamesOwn_scriptsOf ctx.scripts) hb
      exact w.store.blamesOwn_scriptsOf ctx.scripts _ _ hmissing
    · rfl
  refine ⟨_, hperform, hclaims, hbounded,
    fun rounds hrounds => (hclaim rounds hrounds).trans hperform.symm,
    Store.payload_eq_none_iff, fun payload hpayload => ?_⟩
  have hserves := Store.Claims.serves hclaims hpayload
  exact { hserves with first := hserves.first }

/-! ## A broken queue

Of two problems the second names a script that does not exist, and so does the
second of two languages. Of each problem there is a submission in each language,
and the one that lacks nothing comes last. -/

/-- The rows of the broken queue. -/
def brokenRows : Seed where
  problems :=
    [⟨1, "sum", 1, none, none, none, none, true⟩,
     ⟨2, "product", 1, none, none, some "lost", none, true⟩]
  languages := [⟨"c", "C", "script", 1, true⟩, ⟨"d", "D", "gone", 1, true⟩]
  executables := [⟨"script", "", "9a"⟩]
  testcases := [⟨1, 1, 1, 1, none, "", ""⟩]
  submissions :=
    [⟨1, 1, 1, 2, "c", ⟨0, false⟩, none, false, none⟩,
     ⟨2, 1, 2, 1, "d", ⟨0, false⟩, none, false, none⟩,
     ⟨3, 1, 3, 2, "d", ⟨0, false⟩, none, false, none⟩,
     ⟨4, 1, 4, 1, "c", ⟨0, false⟩, none, false, none⟩]

/-- All submissions wait for a judgehost. -/
def brokenQueued : World :=
  (((((seeded brokenRows (.memory [])).after (.enqueue 1)).after (.enqueue 2)).after
    (.enqueue 3)).after (.enqueue 4)).after (.register "host")

theorem reachable_brokenQueued : brokenQueued.Reachable := by
  have hfree : ∀ r ∈ brokenRows.submissions, r.rejudgingId = none := by decide
  have hseeded : (seeded brokenRows (.memory [])).Reachable := ⟨_, _, hfree, .refl⟩
  exact ((((hseeded.after _).after _).after _).after _).after _

/-- A claim gets past the broken queue: it switches the second problem off, then
the second language, skips the submission that has both, and hands out the
last. -/
theorem passes_brokenQueued :
    brokenQueued.Reachable ∧ contestContext.faults = .none ∧
    (∃ h ∈ brokenQueued.store.judgehosts, h.hostname = "host" ∧ h.active = true) ∧
    (∃ s', brokenQueued.ClaimEnds contestContext "host"
      (brokenQueued.store.claimPass contestContext.scripts) s') ∧
    (brokenQueued.store.claimPass contestContext.scripts).setBacks.map
      (fun b => (b.job.judging.id, b.missing)) =
      [(1, ⟨"lost", .problem 2⟩), (2, ⟨"gone", .language "d"⟩)] ∧
    (brokenQueued.store.claimPass contestContext.scripts).handedOut.map
      (fun out => out.1.judging.id) = some 4 := by
  have hfaults : contestContext.faults = .none := rfl
  have hhost : ∃ h ∈ brokenQueued.store.judgehosts.rows, h.hostname = "host" ∧ h.active = true := by
    decide +kernel
  obtain ⟨host, hhost, hname, hactive⟩ := hhost
  have hpasses := claimJudging_passes reachable_brokenQueued.arises hfaults hhost hactive
  rw [hname] at hpasses
  refine ⟨reachable_brokenQueued, hfaults, ⟨host, hhost, hname, hactive⟩, hpasses, ?_, ?_⟩ <;>
    decide +kernel

end World

end JudgeQueue
