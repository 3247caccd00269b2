import JudgeQueue.Proofs.Dispatch.Pass
/-!
# Dispatch — the jobs of a store

The jobs of a store are its queued judgings whose problem and language may be
judged. Switching a target off takes its jobs away and leaves the others as they
are. A job that has all its scripts shares neither problem nor language with one
whose script is missing there, so it stays a job whatever a pass switches off.
-/

namespace JudgeQueue

/-- Rows that are on are found as before, but for the one that is switched
off. -/
theorem Table.find?_modify_of_off {α κ : Type} [Keyed α κ] [Ord κ] [Std.LawfulEqOrd κ]
    [DecidableEq κ] {t : Table α} {k l : κ} {f : α → α} (hf : ∀ a, key (f a) = key a)
    {p : α → Bool} (hoff : ∀ a, p (f a) = false) {a : α} :
    (t.modify k f hf).find? l = some a ∧ p a = true ↔
      (t.find? l = some a ∧ p a = true) ∧ key a ≠ k := by
  rw [find?_modify, Option.map_eq_some_iff]
  constructor
  · rintro ⟨⟨b, hb, rfl⟩, hon⟩
    split at hon
    · rw [hoff] at hon
      cases hon
    · next hne =>
      rw [if_neg hne]
      exact ⟨⟨hb, hon⟩, hne⟩
  · rintro ⟨⟨ha, hon⟩, hne⟩
    exact ⟨⟨a, ha, if_neg hne⟩, hon⟩

namespace Store

variable (s : Store)

/-- The job that a judging is, if it may be handed out. -/
def job? (j : Judging) : Option Job := do
  let submission ← s.submissions.find? j.submissionId
  let problem ← (s.problems.find? submission.problemId).filter Problem.allowJudge
  let language ← (s.languages.find? submission.languageId).filter Language.allowJudge
  if j.isQueued then some ⟨j, submission, problem, language⟩ else none

/-- All jobs, in the order of the ids of their judgings. -/
def jobs : List Job :=
  s.judgings.rows.filterMap s.job?

/-- The scripts of a job, or the first that is missing. -/
def scriptsOf (defaults : DefaultScripts) (job : Job) : Except MissingScript Scripts :=
  let runScript := job.problem.runScript.getD defaults.run
  let compareScript := job.problem.compareScript.getD defaults.compare
  match s.executables.find? job.language.compileScript with
  | none => .error ⟨job.language.compileScript, .language job.language.id⟩
  | some compile =>
    match s.executables.find? runScript with
    | none => .error ⟨runScript, .problem job.problem.id⟩
    | some run =>
      match s.executables.find? compareScript with
      | none => .error ⟨compareScript, .problem job.problem.id⟩
      | some compare =>
        .ok ⟨⟨compile.id, compile.contentHash⟩, ⟨run.id, run.contentHash⟩,
          ⟨compare.id, compare.contentHash⟩⟩

/-- Whether all scripts of a job exist. -/
def isHealthy (defaults : DefaultScripts) (job : Job) : Bool :=
  s.executables.contains job.language.compileScript &&
    (s.executables.contains (job.problem.runScript.getD defaults.run) &&
      s.executables.contains (job.problem.compareScript.getD defaults.compare))

/-- What a claim comes to. -/
def claimPass (defaults : DefaultScripts) : Pass :=
  Dispatch.pass (s.scriptsOf defaults) [] s.jobs

/-- The store once a target is off. -/
def switchOff : DisableTarget → Store
  | .language id => s.setLanguageAllowed id false
  | .judgehost hostname => s.setJudgehostActive hostname false
  | .problem id => s.setProblemAllowed id false
  | .unknown => s

variable {s} {j : Judging} {job : Job} {defaults : DefaultScripts}

/-! ## Jobs and their rows -/

theorem job?_eq_some_iff :
    s.job? j = some job ↔ job.judging = j ∧ j.lifecycle = .queued ∧
      s.submissions.find? j.submissionId = some job.submission ∧
      (s.problems.find? job.submission.problemId = some job.problem ∧
        job.problem.allowJudge = true) ∧
      s.languages.find? job.submission.languageId = some job.language ∧
        job.language.allowJudge = true := by
  have hqueued : j.isQueued = true ↔ j.lifecycle = .queued := decide_eq_true_iff
  simp only [job?, Option.bind_eq_bind, Option.bind_eq_some_iff, Option.filter_eq_some_iff,
    Option.ite_none_right_eq_some, Option.some.injEq, hqueued]
  constructor
  · rintro ⟨r, hr, p, ⟨hp, hpa⟩, l, ⟨hl, hla⟩, hq, rfl⟩
    exact ⟨rfl, hq, hr, ⟨hp, hpa⟩, hl, hla⟩
  · rintro ⟨rfl, hq, hr, ⟨hp, hpa⟩, hl, hla⟩
    exact ⟨_, hr, _, ⟨hp, hpa⟩, _, ⟨hl, hla⟩, hq, rfl⟩

theorem mem_jobs : job ∈ s.jobs ↔ job.judging ∈ s.judgings ∧ s.job? job.judging = some job := by
  rw [jobs, List.mem_filterMap]
  constructor
  · rintro ⟨j, hj, hjob⟩
    obtain rfl := (job?_eq_some_iff.mp hjob).1
    exact ⟨hj, hjob⟩
  · rintro ⟨hj, hjob⟩
    exact ⟨_, hj, hjob⟩

/-- A judging is a job exactly if it waits and may be handed out. -/
theorem isSome_job? : (s.job? j).isSome = (j.isQueued && s.isDispatchable j) := by
  unfold job? isDispatchable
  cases s.submissions.find? j.submissionId with
  | none => exact (Bool.and_false _).symm
  | some r =>
    simp only [Option.bind_eq_bind, Option.bind_some]
    cases s.problems.find? r.problemId with
    | none => simp
    | some p =>
      cases s.languages.find? r.languageId with
      | none => cases hp : p.allowJudge <;> simp [Option.filter, hp]
      | some l =>
        cases hp : p.allowJudge <;> cases hl : l.allowJudge <;> cases j.isQueued <;>
          simp [Option.filter, hp, hl]

/-- **The first job** is the judging that is handed out next. -/
theorem head?_jobs : s.jobs.head?.map Job.judging = s.nextDispatchable := by
  rw [jobs, List.head?_filterMap, nextDispatchable]
  induction s.judgings.rows with
  | nil => rfl
  | cons j rest ih =>
    rw [List.findSome?_cons, List.find?_cons, ← isSome_job?]
    cases hjob : s.job? j with
    | none => exact ih
    | some job => exact congrArg some (job?_eq_some_iff.mp hjob).1

/-- Jobs are in the order of the ids of their judgings. -/
theorem pairwise_jobs : s.jobs.Pairwise fun a b => a.judging.id < b.judging.id := by
  refine List.Pairwise.filterMap s.job? ?_ s.judgings.ascending
  intro i j hlt a ha b hb
  rw [← (job?_eq_some_iff.mp ha).1, ← (job?_eq_some_iff.mp hb).1] at hlt
  exact Std.compare_eq_lt.mp hlt

/-! ## Targets that are switched off -/

/-- **A job stays one** as long as neither its problem nor its language is
switched off, and its rows stay as they are. -/
theorem job?_switchOff (t : DisableTarget) :
    (s.switchOff t).job? j = (s.job? j).filter fun job => !job.isOf t := by
  refine Option.ext fun job => ?_
  rw [Option.filter_eq_some_iff, job?_eq_some_iff, job?_eq_some_iff, Bool.not_eq_true',
    Job.isOf, Bool.or_eq_false_iff, decide_eq_false_iff_not, decide_eq_false_iff_not]
  cases t with
  | language id =>
    have hlanguage : (s.switchOff (.language id)).languages.find? job.submission.languageId =
          some job.language ∧ job.language.allowJudge = true ↔
        (s.languages.find? job.submission.languageId = some job.language ∧
          job.language.allowJudge = true) ∧ job.language.id ≠ id :=
      Table.find?_modify_of_off (t := s.languages) (f := fun l => { l with allowJudge := false })
        (fun _ => rfl) (p := Language.allowJudge) fun _ => rfl
    rw [hlanguage]
    change _ ∧ _ ∧ s.submissions.find? _ = _ ∧ (s.problems.find? _ = _ ∧ _) ∧ _ ↔ _
    simp only [DisableTarget.language.injEq, reduceCtorEq, not_false_eq_true, and_true, and_assoc,
      ne_comm, ne_eq]
  | problem id =>
    have hproblem : (s.switchOff (.problem id)).problems.find? job.submission.problemId =
          some job.problem ∧ job.problem.allowJudge = true ↔
        (s.problems.find? job.submission.problemId = some job.problem ∧
          job.problem.allowJudge = true) ∧ job.problem.id ≠ id :=
      Table.find?_modify_of_off (t := s.problems) (f := fun p => { p with allowJudge := false })
        (fun _ => rfl) (p := Problem.allowJudge) fun _ => rfl
    rw [hproblem]
    change _ ∧ _ ∧ s.submissions.find? _ = _ ∧ _ ∧ s.languages.find? _ = _ ∧ _ ↔ _
    simp only [DisableTarget.problem.injEq, reduceCtorEq, not_false_eq_true, true_and, ne_comm,
      ne_eq]
    constructor
    · rintro ⟨hj, hq, hr, ⟨hp, hne⟩, hl⟩
      exact ⟨⟨hj, hq, hr, hp, hl⟩, hne⟩
    · rintro ⟨⟨hj, hq, hr, hp, hl⟩, hne⟩
      exact ⟨hj, hq, hr, ⟨hp, hne⟩, hl⟩
  | judgehost | unknown =>
    simp only [reduceCtorEq, not_false_eq_true, and_true]
    exact Iff.rfl

theorem jobs_switchOff (t : DisableTarget) :
    (s.switchOff t).jobs = s.jobs.filter fun job => !job.isOf t := by
  have hjudgings : (s.switchOff t).judgings = s.judgings := by cases t <;> rfl
  rw [jobs, jobs, List.filter_filterMap, hjudgings]
  exact congrArg (List.filterMap · _) (funext fun j => job?_switchOff t)

/-! ## Scripts -/

/-- What a script that is missing says of its owner. -/
theorem scriptsOf_eq_error {missing : MissingScript}
    (h : s.scriptsOf defaults job = .error missing) :
    missing.owner = .language job.language.id ∧
        s.executables.contains job.language.compileScript = false ∨
      missing.owner = .problem job.problem.id ∧
        (s.executables.contains (job.problem.runScript.getD defaults.run) &&
          s.executables.contains (job.problem.compareScript.getD defaults.compare)) = false := by
  simp only [scriptsOf] at h
  simp only [Table.contains]
  split at h
  · next hcompile =>
    cases h
    exact .inl ⟨rfl, by rw [hcompile]; rfl⟩
  · split at h
    · next hrun =>
      cases h
      exact .inr ⟨rfl, by rw [hrun]; rfl⟩
    · split at h
      · next hcompare =>
        cases h
        refine .inr ⟨rfl, ?_⟩
        rw [hcompare]
        exact Bool.and_false _
      · cases h

/-- A job that has all its scripts gets those that it names. -/
theorem scriptsOf_eq_ok {scripts : Scripts} (h : s.scriptsOf defaults job = .ok scripts) :
    (∃ e ∈ s.executables, e.id = job.language.compileScript ∧
        scripts.compile = ⟨e.id, e.contentHash⟩) ∧
      (∃ e ∈ s.executables, e.id = job.problem.runScript.getD defaults.run ∧
        scripts.run = ⟨e.id, e.contentHash⟩) ∧
      ∃ e ∈ s.executables, e.id = job.problem.compareScript.getD defaults.compare ∧
        scripts.compare = ⟨e.id, e.contentHash⟩ := by
  simp only [scriptsOf] at h
  split at h
  · cases h
  · next compile hcompile =>
    split at h
    · cases h
    · next run hrun =>
      split at h
      · cases h
      · next compare hcompare =>
        cases h
        exact ⟨⟨compile, Table.mem_of_find? hcompile, Table.key_of_find? hcompile, rfl⟩,
          ⟨run, Table.mem_of_find? hrun, Table.key_of_find? hrun, rfl⟩,
          compare, Table.mem_of_find? hcompare, Table.key_of_find? hcompare, rfl⟩

/-- **A job is healthy** exactly if its scripts are found. -/
theorem isFound_scriptsOf (s : Store) (defaults : DefaultScripts) :
    Dispatch.isFound (s.scriptsOf defaults) = s.isHealthy defaults := by
  funext job
  rw [Dispatch.isFound, isHealthy]
  cases h : s.scriptsOf defaults job with
  | ok scripts =>
    obtain ⟨⟨c, hc, hcid, -⟩, ⟨r, hr, hrid, -⟩, k, hk, hkid, -⟩ := scriptsOf_eq_ok h
    rw [Table.contains_iff.mpr ⟨c, hc, hcid⟩, Table.contains_iff.mpr ⟨r, hr, hrid⟩,
      Table.contains_iff.mpr ⟨k, hk, hkid⟩]
    rfl
  | error missing =>
    rcases scriptsOf_eq_error h with ⟨-, hmissing⟩ | ⟨-, hmissing⟩
    · rw [hmissing]
      rfl
    · rw [hmissing, Bool.and_false]
      rfl

theorem blamesOwn_scriptsOf (s : Store) (defaults : DefaultScripts) :
    Dispatch.BlamesOwn (s.scriptsOf defaults) := by
  intro job missing h
  rcases scriptsOf_eq_error h with ⟨howner, -⟩ | ⟨howner, -⟩
  · rw [howner, Job.isOf, decide_eq_true rfl, Bool.true_or]
  · rw [howner, Job.isOf, decide_eq_true rfl, Bool.or_true]

/-- **A healthy job is never blamed for another**: it shares neither a problem
nor a language with a job whose script is missing there. -/
theorem isOf_of_isHealthy {job' : Job} {missing : MissingScript} (hjob : job ∈ s.jobs)
    (hjob' : job' ∈ s.jobs) (h : s.scriptsOf defaults job = .error missing)
    (hhealthy : s.isHealthy defaults job' = true) : job'.isOf missing.owner = false := by
  obtain ⟨-, -, -, ⟨hp, -⟩, hl, -⟩ := job?_eq_some_iff.mp (mem_jobs.mp hjob).2
  obtain ⟨-, -, -, ⟨hp', -⟩, hl', -⟩ := job?_eq_some_iff.mp (mem_jobs.mp hjob').2
  rw [isHealthy, Bool.and_eq_true] at hhealthy
  rw [Job.isOf, Bool.or_eq_false_iff, decide_eq_false_iff_not, decide_eq_false_iff_not]
  rcases scriptsOf_eq_error h with ⟨howner, hmissing⟩ | ⟨howner, hmissing⟩
  · refine ⟨fun heq => ?_, fun heq => ?_⟩
    · have hid := DisableTarget.language.inj (howner.symm.trans heq)
      have hsame : job.language = job'.language :=
        Table.eq_of_key_eq (Table.mem_of_find? hl) (Table.mem_of_find? hl') hid
      rw [hsame, hhealthy.1] at hmissing
      cases hmissing
    · cases howner.symm.trans heq
  · refine ⟨fun heq => ?_, fun heq => ?_⟩
    · cases howner.symm.trans heq
    · have hid := DisableTarget.problem.inj (howner.symm.trans heq)
      have hsame : job.problem = job'.problem :=
        Table.eq_of_key_eq (Table.mem_of_find? hp) (Table.mem_of_find? hp') hid
      rw [hsame, hhealthy.2] at hmissing
      cases hmissing

/-! ## The pass of a claim -/

/-- **A claim hands out the first healthy job**, whatever it switches off on the
way. -/
theorem handedOut_claimPass (s : Store) (defaults : DefaultScripts) :
    (s.claimPass defaults).handedOut.map Prod.fst = s.jobs.find? (s.isHealthy defaults) := by
  rw [← isFound_scriptsOf]
  refine Dispatch.handedOut_pass (fun _ _ _ => rfl)
    fun job hjob missing hmissing job' hjob' hfound => ?_
  rw [isFound_scriptsOf] at hfound
  exact isOf_of_isHealthy hjob hjob' hmissing hfound

/-- The problems and languages that are switched on. -/
def enabled (s : Store) : List DisableTarget :=
  (s.problems.filter Problem.allowJudge).map (fun p => .problem p.id) ++
    (s.languages.filter Language.allowJudge).map fun l => .language l.id

theorem length_enabled (s : Store) : s.enabled.length = s.enabledTargets := by
  rw [enabled, List.length_append, List.length_map, List.length_map, enabledTargets,
    List.countP_eq_length_filter, List.countP_eq_length_filter]
  rfl

/-- What is blamed was switched on. -/
theorem owner_mem_enabled {b : SetBack} (hb : b ∈ (s.claimPass defaults).setBacks) :
    b.missing.owner ∈ s.enabled := by
  obtain ⟨hjob, hmissing, -⟩ := Dispatch.mem_setBacks (s.blamesOwn_scriptsOf defaults) hb
  obtain ⟨-, -, -, ⟨hp, hpa⟩, hl, hla⟩ := job?_eq_some_iff.mp (mem_jobs.mp hjob).2
  rcases scriptsOf_eq_error hmissing with ⟨howner, -⟩ | ⟨howner, -⟩
  · rw [howner]
    exact List.mem_append_right _
      (List.mem_map_of_mem (Table.mem_filter.mpr ⟨Table.mem_of_find? hl, hla⟩))
  · rw [howner]
    exact List.mem_append_left _
      (List.mem_map_of_mem (Table.mem_filter.mpr ⟨Table.mem_of_find? hp, hpa⟩))

/-- **No more jobs are put back than there are targets switched on.** -/
theorem length_setBacks_le (s : Store) (defaults : DefaultScripts) :
    (s.claimPass defaults).setBacks.length ≤ s.enabledTargets := by
  have hsub : (s.claimPass defaults).setBacks.map (fun b => b.missing.owner) ⊆ s.enabled := by
    intro t ht
    obtain ⟨b, hb, rfl⟩ := List.mem_map.mp ht
    exact owner_mem_enabled hb
  have hnodup := Dispatch.nodup_owners (s.blamesOwn_scriptsOf defaults) [] s.jobs
  have hle := (hnodup.subperm hsub).length_le
  rw [List.length_map, length_enabled] at hle
  exact hle

end Store

end JudgeQueue
