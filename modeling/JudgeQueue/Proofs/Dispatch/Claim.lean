import JudgeQueue.Proofs.Graded.Progress
import JudgeQueue.Proofs.Grading.Run
import JudgeQueue.Proofs.Recovery.Switch
import JudgeQueue.Proofs.Trace.Dispatch
/-!
# Dispatch — a claim as one pass

A round of a claim takes the first job. If it misses a script the job is put
back, its target is switched off and an internal error is raised; what is left
of the jobs is then what the pass has yet to come to. So all rounds together are
the pass, and there are as many rounds as the pass puts jobs back, and one more.
-/

namespace JudgeQueue

open Transaction

namespace SetBack

/-- The internal error that is raised for a job that is put back. -/
def error (b : SetBack) (now : Instant) : NewInternalError where
  contestId := some b.job.submission.contestId
  judgingId := none
  description := "Executable '" ++ b.missing.executableId ++ "' is missing"
  judgehostLog := ""
  time := now
  disabled := b.missing.owner.toValue

/-- The event that tells of it. -/
def event (b : SetBack) (id : Int) : Event :=
  .internalErrorRaised id none b.missing.owner.kind

end SetBack

namespace Store

variable (s : Store)

/-- The store once a job has been put back. -/
def setBack (b : SetBack) (now : Instant) : Store :=
  ((s.switchOff b.missing.owner).insertInternalError (b.error now)).2

/-- The store once some jobs have been put back. -/
def setBackAll (bs : List SetBack) (now : Instant) : Store :=
  bs.foldl (fun s b => s.setBack b now) s

/-- The store after a pass. -/
def claim (p : Pass) (hostname : String) (now : Instant) : Store :=
  match p.handedOut with
  | none => s.setBackAll p.setBacks now
  | some (job, _) => (s.setBackAll p.setBacks now).handOut job.judging.id hostname now

variable {s} {b : SetBack} {now : Instant} {defaults : DefaultScripts}

/-! ## Jobs that are put back -/

/-- What is put back switches a target off and raises one internal error. -/
theorem setBack_frame (s : Store) (b : SetBack) (now : Instant) :
    s.setBack b now = { s with
      judgehosts := (s.setBack b now).judgehosts
      problems := (s.setBack b now).problems
      languages := (s.setBack b now).languages
      internalErrors := (s.setBack b now).internalErrors
      lastInternalError := s.lastInternalError + 1 } := by
  unfold setBack
  cases b.missing.owner <;> rfl

theorem jobs_setBack (s : Store) (b : SetBack) (now : Instant) :
    (s.setBack b now).jobs = s.jobs.filter fun job => !job.isOf b.missing.owner :=
  jobs_switchOff b.missing.owner

theorem scriptsOf_setBack (s : Store) (b : SetBack) (now : Instant) (defaults : DefaultScripts) :
    (s.setBack b now).scriptsOf defaults = s.scriptsOf defaults := by
  have hframe : (s.setBack b now).executables = s.executables := by rw [setBack_frame]
  funext job
  simp only [scriptsOf, hframe]

/-- **What is left of a pass** once the first job has been put back. -/
theorem claimPass_setBack {job : Job} {rest : List Job} {missing : MissingScript}
    (hjobs : s.jobs = job :: rest) (hmissing : s.scriptsOf defaults job = .error missing)
    (now : Instant) :
    s.claimPass defaults =
      ⟨⟨job, missing⟩ :: ((s.setBack ⟨job, missing⟩ now).claimPass defaults).setBacks,
        ((s.setBack ⟨job, missing⟩ now).claimPass defaults).handedOut⟩ := by
  have hown : job.isOf missing.owner = true := s.blamesOwn_scriptsOf defaults job missing hmissing
  have hrest : (s.setBack ⟨job, missing⟩ now).jobs =
      rest.filter fun job => !List.any [missing.owner] job.isOf := by
    rw [jobs_setBack, hjobs, List.filter_cons_of_neg (by rw [hown]; decide)]
    simp only [List.any_cons, List.any_nil, Bool.or_false]
  have hon : ¬ ([] : List DisableTarget).any job.isOf = true := Bool.false_ne_true
  rw [claimPass, claimPass, hrest, scriptsOf_setBack, Dispatch.pass_filter, hjobs,
    Dispatch.pass_of_missing hon hmissing]
  rfl

end Store

/-! ## What putting jobs back makes of a store -/

/-- Some jobs have been put back: what is blamed is off, an internal error has
been raised for each of them, and nothing else has changed. -/
structure Store.PutsBack (s s' : Store) (bs : List SetBack) (now : Instant) : Prop where
  problems : s'.problems = s.problems.update
    (fun p => bs.any fun b => b.missing.owner = .problem p.id)
    (fun p => { p with allowJudge := false }) fun _ => rfl
  languages : s'.languages = s.languages.update
    (fun l => bs.any fun b => b.missing.owner = .language l.id)
    (fun l => { l with allowJudge := false }) fun _ => rfl
  internalErrors : s'.internalErrors.rows = s.internalErrors.rows ++ bs.mapIdx fun i b =>
    (b.error now).opened (s.lastInternalError + 1 + i)
  lastInternalError : s'.lastInternalError = s.lastInternalError + bs.length
  frame : s' = { s with
    problems := s'.problems
    languages := s'.languages
    internalErrors := s'.internalErrors
    lastInternalError := s'.lastInternalError }

namespace Store

variable {s s₁ s' : Store} {b : SetBack} {bs : List SetBack} {now : Instant}

/-- Nothing is put back. -/
theorem PutsBack.nil : s.PutsBack s [] now where
  problems := (Table.update_eq_self fun _ _ h => absurd h Bool.false_ne_true).symm
  languages := (Table.update_eq_self fun _ _ h => absurd h Bool.false_ne_true).symm
  internalErrors := (List.append_nil _).symm
  lastInternalError := (Int.add_zero _).symm
  frame := rfl

/-- An internal error is raised after those that are there. -/
theorem rows_insertInternalError (hle : ∀ e ∈ s.internalErrors, e.id ≤ s.lastInternalError)
    (new : NewInternalError) :
    (s.insertInternalError new).2.internalErrors.rows =
      s.internalErrors.rows ++ [new.opened (s.lastInternalError + 1)] :=
  Table.rows_insert_of_le hle rfl

/-- One job is put back. -/
theorem putsBack_setBack (hle : ∀ e ∈ s.internalErrors, e.id ≤ s.lastInternalError)
    (hown : b.job.isOf b.missing.owner = true) : s.PutsBack (s.setBack b now) [b] now := by
  have hrows := rows_insertInternalError hle (b.error now)
  rw [← Int.add_zero (s.lastInternalError + 1)] at hrows
  obtain ⟨job, executableId, owner⟩ := b
  cases owner with
  | language id =>
    have hoff : s.languages.modify id (fun l => { l with allowJudge := false }) (fun _ => rfl) =
        s.languages.update (fun l => [(⟨job, executableId, .language id⟩ : SetBack)].any
          fun b => b.missing.owner = .language l.id) (fun l => { l with allowJudge := false })
          fun _ => rfl :=
      Table.update_congr fun l _ => by simp [key, eq_comm]
    refine ⟨(Table.update_eq_self fun _ _ h => ?_).symm, hoff, hrows, rfl, rfl⟩
    simp at h
  | problem id =>
    have hoff : s.problems.modify id (fun p => { p with allowJudge := false }) (fun _ => rfl) =
        s.problems.update (fun p => [(⟨job, executableId, .problem id⟩ : SetBack)].any
          fun b => b.missing.owner = .problem p.id) (fun p => { p with allowJudge := false })
          fun _ => rfl :=
      Table.update_congr fun p _ => by simp [key, eq_comm]
    refine ⟨hoff, (Table.update_eq_self fun _ _ h => ?_).symm, hrows, rfl, rfl⟩
    simp at h
  | judgehost | unknown =>
    rw [Job.isOf, Bool.or_eq_true, decide_eq_true_iff, decide_eq_true_iff] at hown
    rcases hown with hown | hown <;> cases hown

/-- More are put back after it. -/
theorem PutsBack.cons (h : s.PutsBack s₁ [b] now) (hrest : s₁.PutsBack s' bs now) :
    s.PutsBack s' (b :: bs) now where
  problems := by
    rw [hrest.problems, h.problems]
    refine Table.update_update fun p _ => ?_
    by_cases hb : b.missing.owner = .problem p.id <;> simp [hb]
  languages := by
    rw [hrest.languages, h.languages]
    refine Table.update_update fun l _ => ?_
    by_cases hb : b.missing.owner = .language l.id <;> simp [hb]
  internalErrors := by
    have hnext : ∀ i : Nat, s₁.lastInternalError + 1 + i =
        s.lastInternalError + 1 + ((i + 1 : Nat) : Int) := by
      intro i
      rw [h.lastInternalError, List.length_singleton]
      omega
    rw [hrest.internalErrors, h.internalErrors, List.append_assoc, List.mapIdx_cons (l := bs)]
    simp only [hnext]
    rfl
  lastInternalError := by
    have hnext : s₁.lastInternalError = s.lastInternalError + 1 := h.lastInternalError
    rw [hrest.lastInternalError, hnext, List.length_cons]
    omega
  frame := by
    rw [hrest.frame, h.frame]

/-- **Jobs are put back** one after another. -/
theorem putsBack_setBackAll (hle : ∀ e ∈ s.internalErrors, e.id ≤ s.lastInternalError)
    (hown : ∀ b ∈ bs, b.job.isOf b.missing.owner = true) :
    s.PutsBack (s.setBackAll bs now) bs now := by
  induction bs generalizing s with
  | nil => exact .nil
  | cons b bs ih =>
    obtain ⟨hb, hbs⟩ := List.forall_mem_cons.mp hown
    have hfirst : s.PutsBack (s.setBack b now) [b] now := putsBack_setBack hle hb
    refine hfirst.cons (ih (fun e he => ?_) hbs)
    rw [hfirst.lastInternalError]
    rw [← Table.mem_rows, hfirst.internalErrors, List.mem_append] at he
    rcases he with he | he
    · have hid := hle e he
      rw [List.length_singleton]
      omega
    · rw [List.mapIdx_singleton, List.mem_singleton] at he
      subst he
      exact Int.le_of_eq (Int.add_zero _)

end Store

namespace Pass

/-- What a judgehost is answered after a pass. -/
def payload (p : Pass) (s : Store) (hostname : String) (now : Instant) : Option Payload :=
  p.handedOut.map fun (job, scripts) =>
    ⟨job.judging.claimedBy hostname now, job.submission, job.problem, job.language,
      scripts.compile, scripts.run, scripts.compare, s.testcasesOf job.problem.id⟩

/-- What a pass tells of: the errors that it raises, and the judging that is
begun. -/
def events (p : Pass) (s : Store) (hostname : String) : List Event :=
  (p.setBacks.mapIdx fun i b => b.event (s.lastInternalError + 1 + i)) ++
    (p.handedOut.map fun (job, _) =>
      .judgingBegun job.judging.id job.judging.submissionId hostname).toList

variable {s : Store} {b : SetBack} {bs : List SetBack}

/-- Putting a job back first does not change what is answered. -/
theorem payload_cons (handedOut : Option (Job × Scripts)) (hostname : String) (now : Instant) :
    (⟨b :: bs, handedOut⟩ : Pass).payload s hostname now =
      (⟨bs, handedOut⟩ : Pass).payload (s.setBack b now) hostname now := by
  have hframe : (s.setBack b now).testcases = s.testcases := by rw [Store.setBack_frame]
  simp only [payload, Store.testcasesOf, hframe]

/-- It is told of first. -/
theorem events_cons (handedOut : Option (Job × Scripts)) (hostname : String) (now : Instant) :
    (⟨b :: bs, handedOut⟩ : Pass).events s hostname =
      b.event (s.lastInternalError + 1) ::
        (⟨bs, handedOut⟩ : Pass).events (s.setBack b now) hostname := by
  have hnext : ∀ i : Nat, (s.setBack b now).lastInternalError + 1 + i =
      s.lastInternalError + 1 + ((i + 1 : Nat) : Int) := by
    intro i
    have hframe : (s.setBack b now).lastInternalError = s.lastInternalError + 1 := by
      rw [Store.setBack_frame]
    rw [hframe]
    omega
  have hfirst : s.lastInternalError + 1 + ((0 : Nat) : Int) = s.lastInternalError + 1 :=
    Int.add_zero _
  rw [events, events, List.mapIdx_cons, List.cons_append, hfirst]
  simp only [hnext]

end Pass

namespace Dispatch

variable {w : World} {job : Job}

/-! ## Rounds -/

theorem run_findScript (id : String) (owner : DisableTarget) :
    (findScript id owner).run w = (.ok (match w.store.executables.find? id with
      | some e => .ok ⟨e.id, e.contentHash⟩
      | none => .error ⟨id, owner⟩), w) := by
  rw [findScript, run_bind (run_ask rfl)]
  cases w.store.executables.find? id <;> rfl

/-- **Looking scripts up** finds those of the job, or the first that is missing. -/
theorem run_resolveScripts (defaults : DefaultScripts) (job : Job) :
    (resolveScripts defaults job.problem job.language).run w =
      (.ok (w.store.scriptsOf defaults job), w) := by
  simp only [resolveScripts, Store.scriptsOf]
  rw [run_bind (run_findScript _ _)]
  cases w.store.executables.find? job.language.compileScript with
  | none => rfl
  | some compile =>
    simp only
    rw [run_bind (run_findScript _ _)]
    cases w.store.executables.find? (job.problem.runScript.getD defaults.run) with
    | none => rfl
    | some run =>
      simp only
      rw [run_bind (run_findScript _ _)]
      cases w.store.executables.find? (job.problem.compareScript.getD defaults.compare) <;> rfl

/-- **A job is put back** as it was before it was handed out. -/
theorem run_putBack (hjob : job ∈ w.store.jobs) (hidle : job.judging.unclaimed = job.judging)
    (missing : MissingScript) (hostname : String) (now : Instant) :
    (putBack (job.judging.claimedBy hostname now) job.submission.contestId missing now).run
        { w with store := w.store.handOut job.judging.id hostname now } =
      (.ok (SetBack.event ⟨job, missing⟩ (w.store.lastInternalError + 1)),
        { w with store := w.store.setBack ⟨job, missing⟩ now }) := by
  obtain ⟨hmem, hjob⟩ := Store.mem_jobs.mp hjob
  have hback : w.store.putBack job.judging.id = w.store := by
    have hsame : w.store.judgings.modify job.judging.id Judging.unclaimed Judging.key_unclaimed =
        w.store.judgings := by
      refine Table.update_eq_self fun a ha hid => ?_
      rw [Store.judging_eq ha hmem (of_decide_eq_true hid)]
      exact hidle
    rw [Store.putBack, hsame]
  have hwrite := updateJudging_handOut hmem (Store.job?_eq_some_iff.mp hjob).2.1 hostname now
  rw [hback] at hwrite
  obtain ⟨known, hoff⟩ := run_setTargetEnabled (w := w) missing.owner false
  rw [Store.switch_false] at hoff
  have hlast : (w.store.switchOff missing.owner).lastInternalError = w.store.lastInternalError := by
    cases missing.owner <;> rfl
  have hraise : (ask (.insertInternalError (SetBack.error ⟨job, missing⟩ now))).run
      { w with store := w.store.switchOff missing.owner } =
      (.ok ((SetBack.error ⟨job, missing⟩ now).opened (w.store.lastInternalError + 1)),
        { w with store := w.store.setBack ⟨job, missing⟩ now }) := by
    rw [← hlast]
    rfl
  have hupdate := Grading.run_updateJudging
    (w := { w with store := w.store.handOut job.judging.id hostname now }) hwrite
  exact (run_bind hupdate).trans ((run_bind hoff).trans (run_bind hraise))

/-- The first job is the one whose judging is handed out. -/
theorem run_claimNextJudging {rest : List Job} (hjobs : w.store.jobs = job :: rest)
    (hostname : String) (now : Instant) :
    (ask (.claimNextJudging hostname now)).run w =
      (.ok (some (job.judging.claimedBy hostname now)),
        { w with store := w.store.handOut job.judging.id hostname now }) := by
  have hnext : w.store.nextDispatchable = some job.judging := by
    rw [← Store.head?_jobs, hjobs]
    rfl
  have hquery : (Query.claimNextJudging hostname now).run w.store =
      .ok (some (job.judging.claimedBy hostname now),
        w.store.handOut job.judging.id hostname now) := by
    rw [Query.run, Store.claimNextJudging, hnext]
    rfl
  exact run_ask hquery

/-- How a round goes on once the scripts of its job have been looked up. -/
def endRound (defaults : DefaultScripts) (hostname : String) (now : Instant) (rounds : Nat)
    (raised : List Event) (job : Job) :
    Except MissingScript Scripts → Transaction (Ending (Option Payload))
  | .ok scripts => do
    let testcases ← ask (.listTestcases job.problem.id)
    commit
      (some ⟨job.judging.claimedBy hostname now, job.submission, job.problem, job.language,
        scripts.compile, scripts.run, scripts.compare, testcases⟩)
      (raised ++ [.judgingBegun job.judging.id job.judging.submissionId hostname])
  | .error missing => do
    let event ← putBack (job.judging.claimedBy hostname now) job.submission.contestId missing now
    claimRounds defaults hostname now rounds (raised ++ [event])

/-- **A round takes the first job** and looks its scripts up. -/
theorem run_round (defaults : DefaultScripts) {rest : List Job}
    (hjobs : w.store.jobs = job :: rest) (rounds : Nat) (raised : List Event) (hostname : String)
    (now : Instant) :
    (claimRounds defaults hostname now (rounds + 1) raised).run w =
      (endRound defaults hostname now rounds raised job (w.store.scriptsOf defaults job)).run
        { w with store := w.store.handOut job.judging.id hostname now } := by
  obtain ⟨-, hjob⟩ := Store.mem_jobs.mp (hjobs ▸ List.mem_cons_self)
  obtain ⟨-, -, hr, ⟨hp, -⟩, hl, -⟩ := Store.job?_eq_some_iff.mp hjob
  let w₁ : World := { w with store := w.store.handOut job.judging.id hostname now }
  have hsubmission : (loadSubmission job.judging.submissionId).run w₁ =
      (.ok job.submission, w₁) := by
    rw [← Table.key_of_find? hr]
    exact run_loadSubmission (w := w₁) (Table.mem_of_find? hr)
  have hproblem : (ask (.findProblem job.submission.problemId)).run w₁ =
      (.ok (some job.problem), w₁) := by
    rw [← hp]
    rfl
  have hlanguage : (ask (.findLanguage job.submission.languageId)).run w₁ =
      (.ok (some job.language), w₁) := by
    rw [← hl]
    rfl
  have hscripts : (resolveScripts defaults job.problem job.language).run w₁ =
      (.ok (w.store.scriptsOf defaults job), w₁) := run_resolveScripts defaults job
  refine (run_bind (run_claimNextJudging hjobs hostname now)).trans ?_
  refine (run_bind hsubmission).trans ((run_bind hproblem).trans ((run_bind rfl).trans ?_))
  refine (run_bind hlanguage).trans ((run_bind rfl).trans ((run_bind hscripts).trans ?_))
  cases w.store.scriptsOf defaults job <;> rfl

/-- **All rounds of a claim are one pass**, if there are enough of them. -/
theorem run_claimRounds (defaults : DefaultScripts)
    (hidle : ∀ j ∈ w.store.judgings, j.lifecycle = .queued → j.unclaimed = j) {rounds : Nat}
    (hrounds : (w.store.claimPass defaults).setBacks.length < rounds) (raised : List Event)
    (hostname : String) (now : Instant) :
    (claimRounds defaults hostname now rounds raised).run w =
      (.ok (.commit ((w.store.claimPass defaults).payload w.store hostname now)
        (raised ++ (w.store.claimPass defaults).events w.store hostname)),
        { w with store := w.store.claim (w.store.claimPass defaults) hostname now }) := by
  induction rounds generalizing w raised with
  | zero => exact absurd hrounds (Nat.not_lt_zero _)
  | succ rounds ih =>
    cases hjobs : w.store.jobs with
    | nil =>
      have hpass : w.store.claimPass defaults = ⟨[], none⟩ := by
        rw [Store.claimPass, hjobs]
        rfl
      have hnext : w.store.nextDispatchable = none := by
        rw [← Store.head?_jobs, hjobs]
        rfl
      have hquery : (Query.claimNextJudging hostname now).run w.store = .ok (none, w.store) := by
        rw [Query.run, Store.claimNextJudging, hnext]
      rw [hpass, claimRounds, run_bind (run_ask hquery)]
      change (Except.ok (Ending.commit none raised), w) =
        (Except.ok (Ending.commit none (raised ++ [])), w)
      rw [List.append_nil]
    | cons job rest =>
      have hmem : job ∈ w.store.jobs := hjobs ▸ List.mem_cons_self
      have hround := run_round defaults hjobs rounds raised hostname now
      cases hfound : w.store.scriptsOf defaults job with
      | ok scripts =>
        have hpass : w.store.claimPass defaults = ⟨[], some (job, scripts)⟩ := by
          rw [Store.claimPass, hjobs]
          exact pass_of_ok Bool.false_ne_true hfound
        rw [hround, hfound, hpass]
        rfl
      | error missing =>
        -- the job is put back, and the other rounds are the rest of the pass
        have hpass := Store.claimPass_setBack hjobs hfound now
        obtain ⟨hjudging, hjob⟩ := Store.mem_jobs.mp hmem
        have hback := run_putBack hmem (hidle _ hjudging (Store.job?_eq_some_iff.mp hjob).2.1)
          missing hostname now
        let w₁ : World := { w with store := w.store.setBack ⟨job, missing⟩ now }
        have hidle₁ : ∀ j ∈ w₁.store.judgings, j.lifecycle = .queued → j.unclaimed = j := by
          have hframe : (w.store.setBack ⟨job, missing⟩ now).judgings = w.store.judgings := by
            rw [Store.setBack_frame]
          intro j hj
          exact hidle j (hframe ▸ hj)
        have hrounds₁ : (w₁.store.claimPass defaults).setBacks.length < rounds := by
          rw [hpass] at hrounds
          exact Nat.lt_of_succ_lt_succ hrounds
        have hrest := ih hidle₁ hrounds₁
          (raised ++ [SetBack.event ⟨job, missing⟩ (w.store.lastInternalError + 1)])
        rw [hround, hfound]
        refine (run_bind hback).trans (hrest.trans ?_)
        rw [hpass, Pass.payload_cons _ _ now, Pass.events_cons _ _ now, List.append_assoc]
        rfl

end Dispatch

end JudgeQueue
