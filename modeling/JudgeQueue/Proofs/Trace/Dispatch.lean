import JudgeQueue.Proofs.Trace.Recovery
/-!
# Traces of requests — dispatch and administration

A claim is the one request that may change its mind: a judging that is
handed out without its scripts is put back, and the next one is tried. On
the whole the judging has stayed in the queue, and what is left of the round
is that its target is off and that an internal error is told of.
-/

namespace JudgeQueue

open Transaction

variable {now : Instant} {s t : Store}

/-- A judging that is handed out is held as its judgehost has it. -/
theorem Store.mem_handOut {j : Judging} (hj : j ∈ s.judgings) (hostname : String) (now : Instant) :
    j.claimedBy hostname now ∈ (s.handOut j.id hostname now).judgings := by
  rw [handOut, Table.mem_modify]
  exact .inl ⟨j, hj, rfl, rfl⟩

namespace Dispatch

/-! ## Registration -/

/-- Saying what a judgehost left behind reads the store only. -/
theorem ensures_unfinished (rs : List Requeued) :
    (unfinished rs).Ensures s fun _ s' => s' = s := by
  induction rs with
  | nil => exact rfl
  | cons r rest ih =>
    simp only [unfinished, ensures_bind, ensures_loadSubmission, ensures_pure]
    exact fun _ _ => ih

theorem traces_register (hs : s.Sound) (hostname : String) (now : Instant) :
    (register hostname now).Traces now s := by
  simp only [Traces, register, commits_bind, ensures_ask, Query.run]
  split
  · next hnew =>
    simp only [commits_bind, ensures_ask, Query.run, Store.insertJudgehost]
    split
    · next hinsert =>
      split at hinsert
      · cases hinsert
      · cases hinsert
        exact commits_commit.mpr (.of_change (.addJudgehost hnew))
    · trivial
  · simp only [commits_bind, ensures_ask, Query.run]
    have hc : Change now s [] (s.touchJudgehost hostname now) := .touchJudgehost hostname
    refine (ensures_requeueHeldBy (hs.change hc) hostname now).mono fun rs s₁ ht => ?_
    refine (ensures_unfinished rs).mono ?_
    rintro us _ rfl
    exact commits_commit.mpr (.silent hc ht)

/-! ## Claims -/

theorem ensures_findScript (id : String) (owner : DisableTarget) :
    (findScript id owner).Ensures s fun found s' =>
      s' = s ∧ ∀ missing, found = .error missing → missing.owner = owner := by
  simp only [findScript, ensures_bind, ensures_ask, Query.run]
  split
  · exact ⟨rfl, fun missing h => by cases h⟩
  · refine ⟨rfl, fun missing h => ?_⟩
    cases h
    rfl

/-- **Looking scripts up** reads the store only, and blames the language or
the problem for the one that is missing. -/
theorem ensures_resolveScripts (defaults : DefaultScripts) (problem : Problem)
    (language : Language) :
    (resolveScripts defaults problem language).Ensures s fun found s' =>
      s' = s ∧ ∀ missing, found = .error missing →
        missing.owner = .language language.id ∨ missing.owner = .problem problem.id := by
  simp only [resolveScripts, ensures_bind]
  refine (ensures_findScript _ _).mono ?_
  rintro compile _ ⟨rfl, hcompile⟩
  split
  · next missing =>
    refine ⟨rfl, fun m hm => ?_⟩
    cases hm
    exact .inl (hcompile missing rfl)
  · rw [ensures_bind]
    refine (ensures_findScript _ _).mono ?_
    rintro run _ ⟨rfl, hrun⟩
    split
    · next missing =>
      refine ⟨rfl, fun m hm => ?_⟩
      cases hm
      exact .inr (hrun missing rfl)
    · rw [ensures_bind]
      refine (ensures_findScript _ _).mono ?_
      rintro compare _ ⟨rfl, hcompare⟩
      split
      · next missing =>
        refine ⟨rfl, fun m hm => ?_⟩
        cases hm
        exact .inr (hcompare missing rfl)
      · exact ⟨rfl, fun m hm => by cases hm⟩

/-- A judging back in the queue. -/
def returned (j : Judging) : Judging :=
  { j with lifecycle := .queued, server := none, startTime := none }

theorem key_returned (j : Judging) : key (returned j) = key j := rfl

/-- **Handing a judging out and putting it back** takes its judgehost and its
start from it, if it had them. -/
theorem updateJudging_handOut {j : Judging} (hj : j ∈ s.judgings) (hl : j.lifecycle = .queued)
    (hostname : String) (now : Instant) :
    (s.handOut j.id hostname now).updateJudging (returned (j.claimedBy hostname now)) =
      .ok (s.putBack j.id) := by
  rw [Store.updateJudging_eq (j := returned (j.claimedBy hostname now))
    (Store.mem_handOut hj hostname now) rfl key_returned rfl, Except.ok.injEq]
  have hjud : (s.judgings.modify j.id (·.claimedBy hostname now)
      fun j => j.key_claimedBy hostname now).modify j.id returned key_returned =
      s.judgings.modify j.id Judging.unclaimed Judging.key_unclaimed := by
    refine Table.update_update fun a ha => ?_
    by_cases hid : a.id = j.id
    · have haj := Store.judging_eq ha hj hid
      subst haj
      simp [Judging.claimedBy, returned, Judging.unclaimed, key, hl]
    · simp [key, hid]
  exact congrArg (fun judgings => { s with judgings }) hjud

/-- **A judging that is put back** leaves an internal error, and its target
switched off. -/
theorem ensures_putBack {j : Judging} (hj : s.nextDispatchable = some j) (hostname : String)
    (contestId : Int) {missing : MissingScript} (howner : s.Catalogues missing.owner)
    (now : Instant) :
    (putBack (j.claimedBy hostname now) contestId missing now).Ensures
      (s.handOut j.id hostname now) fun event s' =>
        Trace now s [event] s' ∧ s'.judgehosts = s.judgehosts := by
  obtain ⟨hmem, hl⟩ := Store.mem_of_nextDispatchable hj
  have hwrite : (s.handOut j.id hostname now).updateJudging
      { j.claimedBy hostname now with lifecycle := .queued, server := none, startTime := none } =
      .ok (s.putBack j.id) :=
    updateJudging_handOut hmem hl hostname now
  simp only [putBack, ensures_bind, ensures_ask, Query.run, ensures_pure]
  rw [hwrite]
  have hback : Change now s [] (s.putBack j.id) := .putBack hj
  have hswitch : (setTargetEnabled missing.owner false).Ensures (s.putBack j.id) fun _ s₁ =>
      Trace now (s.putBack j.id) [] s₁ ∧ s₁.judgehosts = s.judgehosts ∧
        s₁.Catalogues missing.owner := by
    cases hm : missing.owner with
    | language id =>
      rw [hm] at howner
      refine ensures_ask.mpr ⟨.of_change (.switchLanguage id false), rfl, ?_⟩
      change (s.setLanguageAllowed id false).languages.contains id = true
      rw [Store.setLanguageAllowed, Table.contains_modify]
      exact howner
    | problem id =>
      rw [hm] at howner
      refine ensures_ask.mpr ⟨.of_change (.switchProblem id false), rfl, ?_⟩
      change (s.setProblemAllowed id false).problems.contains id = true
      rw [Store.setProblemAllowed, Table.contains_modify]
      exact howner
    | judgehost hostname =>
      rw [hm] at howner
      cases howner
    | unknown =>
      rw [hm] at howner
      cases howner
  refine hswitch.mono ?_
  rintro _ s₁ ⟨ht, hhosts, hcatalogued⟩
  have hraise : Change now s₁ _ _ := .raise
    { contestId := some contestId
      judgingId := none
      description := "Executable '" ++ missing.executableId ++ "' is missing"
      judgehostLog := ""
      time := now
      disabled := missing.owner.toValue }
    missing.owner (.inr ⟨hcatalogued, rfl⟩)
  exact ⟨.silent hback (ht.trans (.of_change hraise)), hhosts⟩

/-- **Claiming in rounds.** The events of the rounds before are kept, and
what is added to them is told of in the order of the changes. -/
theorem commits_claimRounds (defaults : DefaultScripts) (hostname : String) (now : Instant)
    (rounds : Nat) (raised : List Event) (hs : s.Sound)
    (hhost : (s.judgehosts.find? hostname).any Judgehost.active = true) :
    (claimRounds defaults hostname now rounds raised).Commits s fun _ es s' =>
      ∃ added, es = raised ++ added ∧ Trace now s added s' := by
  induction rounds generalizing s raised with
  | zero => exact commits_fail
  | succ rounds ih =>
    simp only [claimRounds, commits_bind, ensures_ask, Query.run, Store.claimNextJudging]
    cases hj : s.nextDispatchable with
    | none => exact commits_commit.mpr ⟨[], (List.append_nil raised).symm, .refl⟩
    | some j =>
      simp only [commits_bind, ensures_loadSubmission, ensures_ask, Query.run, ensures_need]
      intro submission _ problem hproblem language hlanguage
      refine (ensures_resolveScripts defaults problem language).mono ?_
      rintro found _ ⟨rfl, hmissing⟩
      have hclaim : Change now s _ _ := .claim hhost hj
      split
      · simp only [commits_bind, ensures_ask, Query.run]
        exact commits_commit.mpr ⟨_, rfl, .of_change hclaim⟩
      · next missing =>
        rw [commits_bind]
        have howner : s.Catalogues missing.owner := by
          rcases hmissing missing rfl with heq | heq
          · rw [heq]
            exact Table.contains_iff.mpr ⟨language, Table.mem_of_find? hlanguage, rfl⟩
          · rw [heq]
            exact Table.contains_iff.mpr ⟨problem, Table.mem_of_find? hproblem, rfl⟩
        refine (ensures_putBack hj hostname _ howner now).mono ?_
        rintro event s₁ ⟨ht, hhosts⟩
        -- the next round starts where the judging is back, for the same judgehost
        have hhost₁ : (s₁.judgehosts.find? hostname).any Judgehost.active = true := by
          rw [hhosts]
          exact hhost
        refine (ih (raised ++ [event]) (hs.trace ht) hhost₁).mono ?_
        rintro _ es s₂ ⟨added, rfl, ht'⟩
        exact ⟨event :: added, by rw [List.append_assoc, List.singleton_append], ht.trans ht'⟩

theorem traces_claimJudging (hs : s.Sound) (defaults : DefaultScripts) (rounds : Nat)
    (hostname : String) (now : Instant) :
    (claimJudging defaults rounds hostname now).Traces now s := by
  refine traces_heartbeat hs fun t b ht hhost => ?_
  cases b with
  | false => exact traces_commit none
  | true =>
    refine (commits_claimRounds defaults hostname now rounds [] ht (hhost rfl)).mono ?_
    rintro _ _ s' ⟨added, rfl, htrace⟩
    exact htrace

/-! ## Testcases and compilation -/

theorem traces_claimTestcase (hs : s.Sound) (hostname : String) (judgingId : Int) (now : Instant) :
    (claimTestcase hostname judgingId now).Traces now s := by
  refine traces_heartbeat hs fun t b ht hhost => ?_
  cases b with
  | false => exact traces_commit none
  | true =>
    simp only [Bool.not_true, Bool.false_eq_true, if_false, Traces, commits_bind,
      ensures_loadJudging]
    intro j _
    split
    · exact traces_commit none
    · simp only [commits_bind, ensures_loadSubmission, ensures_ask, Query.run]
      intro submission _
      split
      · exact traces_commit none
      · simp only [commits_bind, ensures_ask, Query.run]
        exact traces_commit _

/-- Asking for the content of a testcase records the call. -/
theorem commits_findContent (hostname : String) (testcaseId : Int) (now : Instant) :
    (findContent hostname testcaseId now).Commits s fun _ _ s' =>
      s' = s.touchJudgehost hostname now := by
  simp only [findContent, commits_bind, ensures_heartbeat]
  split
  · simp only [commits_bind, ensures_ask, Query.run, ensures_need, commits_commit]
    exact fun _ _ => trivial
  · exact commits_commit.mpr rfl

/-- Fetching a testcase reads a blob after its request, which changes nothing
any more. -/
theorem world_fetchTestcase (ctx : Context) (w : World) (hostname : String) (testcaseId : Int)
    (kind : TestcaseKind) :
    (fetchTestcase ctx w hostname testcaseId kind).world =
      (transact ctx w (findContent hostname testcaseId ctx.now)).world := by
  unfold fetchTestcase
  simp only
  split
  · rfl
  · rfl
  · split <;> rfl

theorem events_fetchTestcase (ctx : Context) (w : World) (hostname : String) (testcaseId : Int)
    (kind : TestcaseKind) : (fetchTestcase ctx w hostname testcaseId kind).events = [] := by
  unfold fetchTestcase
  simp only
  split
  · rfl
  · rfl
  · split <;> rfl

/-- A judging that compiles is not ended by that. -/
theorem isFinalized_compiled {j : Judging} (hl : j.lifecycle = .claimed) (success : Bool)
    (output : String) (now : Instant) :
    (compiled j success output now).isFinalized = !success := by
  cases success with
  | true => exact decide_eq_false (by change j.lifecycle ≠ _; rw [hl]; decide)
  | false => rfl

/-- Writing a judging back that has been compiled. -/
theorem updateJudging_compiled {j : Judging} (hj : j ∈ s.judgings) (success : Bool)
    (output : String) (now : Instant) :
    s.updateJudging (compiled j success output now) = .ok (s.compile j.id success output now) := by
  have hcounted : { compiled j success output now with id := j.id, counted := j.counted } =
      compiled j success output now := by
    cases success <;> rfl
  exact Store.updateJudging_eq hj (key_compiled j success output now)
    (key_compiled · success output now) hcounted

theorem traces_reportCompilation (hs : s.Sound) (hostname : String) (judgingId : Int)
    (success : Bool) (output : String) (now : Instant) :
    (reportCompilation hostname judgingId success output now).Traces now s := by
  refine traces_heartbeat hs fun t b ht hhost => ?_
  cases b with
  | false => exact traces_commit none
  | true =>
    simp only [Bool.not_true, Bool.false_eq_true, if_false, Traces, commits_bind,
      ensures_loadJudging]
    intro j hj
    obtain ⟨hmem, -⟩ := Store.mem_of_find?_judging hj
    split
    · exact traces_commit none
    · next hheld =>
      have hheld : j.isClaimedBy hostname = true := by simpa using hheld
      have hl := Judging.lifecycle_of_isClaimedBy hheld
      have hid : (compiled j success output now).id = j.id := key_compiled j success output now
      have hsub : (compiled j success output now).submissionId = j.submissionId := by
        cases success <;> rfl
      simp only [commits_bind, ensures_ask, Query.run]
      rw [updateJudging_compiled hmem]
      refine commits_commit.mpr ?_
      have hc : Change now t _ _ := .compile hmem hheld success output
      rw [isFinalized_compiled hl, hsub, hid]
      cases success <;> exact .of_change hc

/-! ## Administration -/

theorem traces_enqueue (submissionId : Int) : (enqueue submissionId).Traces now s := by
  simp only [Traces, enqueue, commits_bind, ensures_loadSubmission, ensures_ask, Query.run,
    ensures_unlessError, Store.insertJudging_eq]
  intro r hr hempty
  obtain ⟨hmem, hid⟩ := Store.mem_of_find?_submission hr
  split
  · next hinsert =>
    split at hinsert
    · cases hinsert
      subst hid
      refine commits_commit.mpr (.of_change (.enqueue hmem fun j hj hsub => ?_))
      by_contra hact
      have hmem : j ∈ s.judgings.filter
          (JudgingFilter.admits { submissionIds := some [r.id], active := some true }) := by
        refine Table.mem_filter.mpr ⟨hj, ?_⟩
        simpa [JudgingFilter.admits, hsub] using hact
      rw [List.isEmpty_iff.mp hempty] at hmem
      cases hmem
    · cases hinsert
  · trivial

theorem traces_listJudgehosts : listJudgehosts.Traces now s := by
  simp only [Traces, listJudgehosts, commits_bind, ensures_ask, Query.run]
  exact traces_commit _

theorem traces_setJudgehostActive (hostname : String) (active : Bool) :
    (setJudgehostActive hostname active).Traces now s := by
  simp only [Traces, setJudgehostActive, commits_bind, ensures_ask, Query.run, ensures_unlessError]
  exact fun _ => commits_commit.mpr (.of_change (.switchJudgehost hostname active))

theorem traces_setProblemJudging (problemId : Int) (allow : Bool) :
    (setProblemJudging problemId allow).Traces now s := by
  simp only [Traces, setProblemJudging, commits_bind, ensures_ask, Query.run, ensures_unlessError]
  exact fun _ => commits_commit.mpr (.of_change (.switchProblem problemId allow))

theorem traces_setLanguageJudging (languageId : String) (allow : Bool) :
    (setLanguageJudging languageId allow).Traces now s := by
  simp only [Traces, setLanguageJudging, commits_bind, ensures_ask, Query.run, ensures_unlessError]
  exact fun _ => commits_commit.mpr (.of_change (.switchLanguage languageId allow))

end Dispatch

/-- Removing a testcase does that if it does anything. -/
theorem commits_deleteTestcase (id : Int) :
    (deleteTestcase id).Commits s fun _ _ s' => s' = (s.deleteTestcase id).2 := by
  simp only [deleteTestcase, commits_bind, ensures_ask, Query.run]
  split
  · exact commits_rollback
  · simp only [commits_bind, ensures_ask, Query.run]
    split
    · simp only [commits_bind, ensures_ask, Query.run]
      exact commits_commit.mpr rfl
    · exact commits_rollback

/-- **A testcase is removed** while no judgehost holds a judging of its
problem. -/
theorem traces_deleteTestcase (id : Int) : (deleteTestcase id).Traces now s := by
  simp only [Traces, deleteTestcase, commits_bind, ensures_ask, Query.run]
  split
  · exact traces_rollback _
  · next t ht =>
    simp only [commits_bind, ensures_ask, Query.run]
    split
    · next hempty =>
      simp only [commits_bind, ensures_ask, Query.run]
      have hid : t.id = id := Table.key_of_find? ht
      subst hid
      refine commits_commit.mpr (.of_change (.removeTestcase (Table.mem_of_find? ht) ?_))
      intro j hj r hr hsub hproblem
      by_contra hheld
      have hmem : j ∈ s.judgings.filter (JudgingFilter.admits
          { submissionIds := some ((s.submissions.filter
              (SubmissionFilter.ofProblem t.problemId).admits).map Submission.id),
            lifecycle := some .claimed }) := by
        have hrmem : r.id ∈ (s.submissions.filter
            (SubmissionFilter.ofProblem t.problemId).admits).map Submission.id := by
          refine List.mem_map_of_mem (Table.mem_filter.mpr ⟨hr, ?_⟩)
          simpa [SubmissionFilter.admits, SubmissionFilter.ofProblem] using hproblem
        refine Table.mem_filter.mpr ⟨hj, ?_⟩
        rw [← hsub] at hrmem
        have hl : j.lifecycle = .claimed := by simpa [Judging.isClaimed] using hheld
        simpa [JudgingFilter.admits, hl] using hrmem
      rw [List.isEmpty_iff.mp hempty] at hmem
      cases hmem
    · exact traces_rollback _

end JudgeQueue
