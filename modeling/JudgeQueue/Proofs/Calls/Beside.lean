import JudgeQueue.Proofs.Calls.Ruling
import JudgeQueue.Proofs.Transaction.Beside
/-!
# Calls of judgehosts — claims beside a ruling

What a ruling changes is the row of a judgehost, a judging that this one holds,
and the runs. A claim of another judgehost meets none of that: the judging that
it is handed waits in the queue, and so do those that it puts back. So the claim
runs beside the ruling, query by query.
-/

namespace JudgeQueue

open Transaction

/-- Calls of different judgehosts are recorded in any order. -/
theorem Store.touchJudgehost_comm {host₁ host₂ : String} (hne : host₁ ≠ host₂) (s : Store)
    (n₁ n₂ : Instant) :
    (s.touchJudgehost host₁ n₁).touchJudgehost host₂ n₂ =
      (s.touchJudgehost host₂ n₂).touchJudgehost host₁ n₁ :=
  congrArg (fun t => { s with judgehosts := t }) (Table.modify_comm hne)

/-! ## Changes beside a ruling -/

namespace Ruling

variable {ruling : Ruling} {host hostname : String} {now : Instant} {s : Store}

/-- A change of the store that may be made before a ruling is applied or after
it. -/
structure Beside (ruling : Ruling) (host : String) (now : Instant) (F : Store → Store) : Prop where
  touch : ∀ s, (F s).touchJudgehost host now = F (s.touchJudgehost host now)
  insertRun : ∀ s new, ((F s).insertRun new).2 = F (s.insertRun new).2
  row : ∀ j recorded, ruling = .heard (some j) recorded → ∀ s t : Store,
    { F t with judgings := (F s).judgings.insert j } =
      F { t with judgings := s.judgings.insert j }

theorem Beside.apply_comm {F : Store → Store} (h : ruling.Beside host now F) (s : Store) :
    ruling.apply host now (F s) = F (ruling.apply host now s) := by
  rcases ruling with e | ⟨_ | j, recorded⟩
  · rfl
  · exact h.touch s
  · rw [apply, apply, h.touch, Store.recordRuns_comm h.insertRun]
    exact h.row j recorded rfl s _

/-- A ruling does not change what lies in other tables. -/
theorem apply_congr {β : Type} (f : Store → β)
    (hf : ∀ s judgehosts judgings runs lastRun, f { s with
      judgehosts := judgehosts, judgings := judgings, runs := runs, lastRun := lastRun } = f s)
    (ruling : Ruling) (host : String) (now : Instant) (s : Store) :
    f (ruling.apply host now s) = f s := by
  rcases ruling with e | ⟨_ | j, recorded⟩
  · rfl
  · exact hf s _ s.judgings s.runs s.lastRun
  · obtain ⟨runs, hruns⟩ := Store.exists_recordRuns (s.touchJudgehost host now) j.id now recorded
    rw [apply, hruns]
    exact hf s _ _ _ _

/-- A ruling is about what its judgehost holds through changes that leave the desk alone. -/
theorem IsAbout.of_brief {s' : Store} (h : ruling.IsAbout s host)
    (hbrief : s'.brief host = s.brief host) : ruling.IsAbout s' host := by
  intro j recorded hruling
  rw [Store.workOf_of_desk (congrArg Brief.desk hbrief)]
  exact h j recorded hruling

/-- No judging under the id of the one that is written waits in the queue. -/
theorem IsAbout.not_queued (h : ruling.IsAbout s host) {j : Judging} {recorded : List RunReport}
    (hruling : ruling = .heard (some j) recorded) {a : Judging} (ha : a ∈ s.judgings)
    (hid : a.id = j.id) : a.isQueued = false := by
  obtain ⟨-, i, hi, hij⟩ := h j recorded hruling
  obtain ⟨hmem, hheld⟩ := Store.mem_workOf.mp hi
  rw [Store.judging_eq ha hmem (hid.trans hij.symm), Judging.isQueued,
    Judging.lifecycle_of_isClaimedBy hheld]
  rfl

/-- **A ruling leaves the queue as it is.** -/
theorem IsAbout.nextDispatchable (h : ruling.IsAbout s host) (now : Instant) :
    (ruling.apply host now s).nextDispatchable = s.nextDispatchable := by
  have hdispatchable : (ruling.apply host now s).isDispatchable = s.isDispatchable :=
    apply_congr Store.isDispatchable (fun _ _ _ _ _ => rfl) ruling host now s
  rw [Store.nextDispatchable, Store.nextDispatchable, hdispatchable]
  rcases ruling with e | ⟨_ | j, recorded⟩
  · rfl
  · rfl
  · rw [← List.head?_filter, ← List.head?_filter]
    refine congrArg List.head? (Table.filter_insert_of_not ?_ fun a ha hid => ?_)
    · rw [(h j recorded rfl).1, Bool.false_and]
    · rw [h.not_queued rfl ha hid, Bool.false_and]

/-- The judging that is handed out next is not the one that is written. -/
theorem IsAbout.ne_next (h : ruling.IsAbout s host) {i j : Judging} {recorded : List RunReport}
    (hi : s.nextDispatchable = some i) (hruling : ruling = .heard (some j) recorded) :
    j.id ≠ i.id := by
  obtain ⟨hmem, hl⟩ := Store.mem_of_nextDispatchable hi
  intro hid
  have hqueued := h.not_queued hruling hmem hid.symm
  rw [Judging.isQueued_iff.mpr hl] at hqueued
  cases hqueued

/-! ### Changes that claims make -/

/-- Another judgehost is heard of. -/
theorem beside_touchJudgehost (hne : host ≠ hostname) (n₁ n₂ : Instant) :
    ruling.Beside host n₁ (·.touchJudgehost hostname n₂) where
  touch s := (Store.touchJudgehost_comm hne s n₁ n₂).symm
  insertRun _ _ := rfl
  row _ _ _ _ _ := rfl

/-- Another judging changes. -/
theorem beside_modify {id : Int} {f : Judging → Judging} (hf : ∀ j, key (f j) = key j)
    (h : ∀ j recorded, ruling = .heard (some j) recorded → j.id ≠ id) :
    ruling.Beside host now fun s => { s with judgings := s.judgings.modify id f hf } where
  touch _ := rfl
  insertRun _ _ := rfl
  row j recorded hruling _ t :=
    congrArg (fun judgings => { t with judgings })
      (Table.modify_insert_comm (h j recorded hruling)).symm

/-! ### Queries of claims -/

/-- A query beside a ruling reads other tables than the ruling changes. -/
theorem beside_read {α : Type} {q : Query α} (f : Store → α) (hq : ∀ s, q.run s = .ok (f s, s))
    (hf : ∀ s judgehosts judgings runs lastRun, f { s with
      judgehosts := judgehosts, judgings := judgings, runs := runs, lastRun := lastRun } = f s) :
    (ask q).Beside (ruling.apply host now) s :=
  Transaction.beside_read f hq (apply_congr f hf ruling host now s)

/-- Or it makes a change that may be made beside it. -/
theorem Beside.write {α : Type} {q : Query α} {F : Store → Store} (h : ruling.Beside host now F)
    (f : Store → α) (hq : ∀ s, q.run s = .ok (f s, F s))
    (hf : ∀ s judgehosts judgings runs lastRun, f { s with
      judgehosts := judgehosts, judgings := judgings, runs := runs, lastRun := lastRun } = f s) :
    (ask q).Beside (ruling.apply host now) s :=
  beside_write f F hq (apply_congr f hf ruling host now s) (h.apply_comm s).symm

/-- A ruling leaves the rows of other judgehosts alone. -/
theorem find?_judgehosts_apply (hne : host ≠ hostname) (ruling : Ruling) (now : Instant)
    (s : Store) :
    (ruling.apply host now s).judgehosts.find? hostname = s.judgehosts.find? hostname := by
  have htouch := Store.row_of_desk (Store.desk_touchJudgehost (s := s) hne now)
  rcases ruling with e | ⟨_ | j, recorded⟩
  · rfl
  · exact htouch
  · have hhosts : ((s.touchJudgehost host now).recordRuns j.id now recorded).judgehosts =
        (s.touchJudgehost host now).judgehosts :=
      Store.recordRuns_congr Store.judgehosts fun _ _ => rfl
    exact (congrArg (·.find? hostname) hhosts).trans htouch

theorem contains_judgings_apply {id : Int}
    (h : ∀ j recorded, ruling = .heard (some j) recorded → j.id ≠ id) :
    (ruling.apply host now s).judgings.contains id = s.judgings.contains id := by
  rcases ruling with e | ⟨_ | j, recorded⟩
  · rfl
  · rfl
  · have hne : key j ≠ id := h j recorded rfl
    change (s.judgings.insert j).contains id = _
    rw [Table.contains, Table.find?_insert, if_neg hne]
    rfl

/-- Another judging is written back. -/
theorem beside_updateJudging {i : Judging}
    (h : ∀ j recorded, ruling = .heard (some j) recorded → j.id ≠ i.id) :
    (ask (.updateJudging i)).Beside (ruling.apply host now) s := by
  refine beside_ask ?_
  rw [Query.Beside, Query.run, Query.run, Store.updateJudging, Store.updateJudging,
    contains_judgings_apply h]
  split
  · exact congrArg (fun t => Except.ok ((), t)) ((beside_modify _ h).apply_comm s).symm
  · rfl

/-- A judging is handed out. -/
theorem IsAbout.beside_claimNextJudging (h : ruling.IsAbout s host) (hostname : String)
    (n₁ n₂ : Instant) :
    (ask (.claimNextJudging hostname n₂)).Beside (ruling.apply host n₁) s := by
  refine beside_ask ?_
  rw [Query.Beside, Query.run, Query.run, Store.claimNextJudging, Store.claimNextJudging,
    h.nextDispatchable]
  cases hi : s.nextDispatchable with
  | none => rfl
  | some i =>
    have hne : ∀ j recorded, ruling = .heard (some j) recorded → j.id ≠ i.id :=
      fun j recorded => h.ne_next hi
    exact congrArg (fun t => Except.ok (some (i.claimedBy hostname n₂), t))
      ((beside_modify _ hne).apply_comm s).symm

end Ruling

/-! ## Claims beside a ruling -/

namespace Dispatch

variable {ruling : Ruling} {host hostname : String} {n₁ n₂ : Instant} {s : Store}

theorem beside_heartbeat (hne : host ≠ hostname) :
    (heartbeat hostname n₂).Beside (ruling.apply host n₁) s := by
  refine beside_bind_of_forall (beside_read (fun s => s.judgehosts.find? hostname) (fun _ => rfl)
    (Ruling.find?_judgehosts_apply hne ruling n₁ s)) fun found s' => ?_
  cases found with
  | none => exact beside_pure false
  | some h =>
    refine beside_bind_of_forall ?_ fun _ _ => beside_pure h.active
    exact (Ruling.beside_touchJudgehost hne n₁ n₂).write (fun _ => ()) (fun _ => rfl)
      fun _ _ _ _ _ => rfl

theorem beside_loadSubmission (id : Int) :
    (loadSubmission id).Beside (ruling.apply host n₁) s :=
  beside_bind_of_forall
    (Ruling.beside_read (fun s => s.submissions.find? id) (fun _ => rfl) fun _ _ _ _ _ => rfl)
    fun found _ => beside_need _ found

theorem beside_findScript (id : String) (owner : DisableTarget) :
    (findScript id owner).Beside (ruling.apply host n₁) s := by
  refine beside_bind_of_forall
    (Ruling.beside_read (fun s => s.executables.find? id) (fun _ => rfl) fun _ _ _ _ _ => rfl)
    fun found _ => ?_
  cases found <;> trivial

theorem beside_resolveScripts (defaults : DefaultScripts) (problem : Problem)
    (language : Language) :
    (resolveScripts defaults problem language).Beside (ruling.apply host n₁) s := by
  refine beside_bind_of_forall (beside_findScript _ _) fun compile _ => ?_
  cases compile with
  | error missing => trivial
  | ok compile =>
    refine beside_bind_of_forall (beside_findScript _ _) fun run _ => ?_
    cases run with
    | error missing => trivial
    | ok run =>
      refine beside_bind_of_forall (beside_findScript _ _) fun compare _ => ?_
      cases compare <;> trivial

/-- Languages and problems are switched off beside a ruling. -/
theorem beside_setTargetEnabled {target : DisableTarget}
    (h : (∃ id, target = .language id) ∨ ∃ id, target = .problem id) (enabled : Bool) :
    (setTargetEnabled target enabled).Beside (ruling.apply host n₁) s := by
  rcases h with ⟨id, rfl⟩ | ⟨id, rfl⟩
  · have hbeside : ruling.Beside host n₁ (·.setLanguageAllowed id enabled) :=
      ⟨fun _ => rfl, fun _ _ => rfl, fun _ _ _ _ _ => rfl⟩
    exact hbeside.write (fun s => s.languages.contains id) (fun _ => rfl) fun _ _ _ _ _ => rfl
  · have hbeside : ruling.Beside host n₁ (·.setProblemAllowed id enabled) :=
      ⟨fun _ => rfl, fun _ _ => rfl, fun _ _ _ _ _ => rfl⟩
    exact hbeside.write (fun s => s.problems.contains id) (fun _ => rfl) fun _ _ _ _ _ => rfl

/-- Another judging is put back. -/
theorem beside_putBack {i : Judging}
    (h : ∀ j recorded, ruling = .heard (some j) recorded → j.id ≠ i.id) (contestId : Int)
    {missing : MissingScript} (howner : (∃ id, missing.owner = .language id) ∨
      ∃ id, missing.owner = .problem id) :
    (putBack i contestId missing n₂).Beside (ruling.apply host n₁) s := by
  refine beside_bind_of_forall (Ruling.beside_updateJudging h) fun _ _ => ?_
  refine beside_bind_of_forall (beside_setTargetEnabled howner false) fun _ _ => ?_
  refine beside_bind_of_forall ?_ fun _ _ => beside_pure _
  generalize ({ .. } : NewInternalError) = new
  have hbeside : ruling.Beside host n₁ fun s => (s.insertInternalError new).2 :=
    ⟨fun _ => rfl, fun _ _ => rfl, fun _ _ _ _ _ => rfl⟩
  exact hbeside.write (fun s => (s.insertInternalError new).1) (fun _ => rfl)
    fun _ _ _ _ _ => rfl

/-- **Claiming in rounds** runs beside a ruling on what another judgehost
holds. -/
theorem beside_claimRounds (hne : host ≠ hostname) (h : ruling.IsAbout s host)
    (defaults : DefaultScripts) (rounds : Nat) (raised : List Event) :
    (claimRounds defaults hostname n₂ rounds raised).Beside (ruling.apply host n₁) s := by
  induction rounds generalizing s raised with
  | zero => trivial
  | succ rounds ih =>
    refine beside_bind (h.beside_claimNextJudging hostname n₁ n₂) ?_
    simp only [ensures_ask, Query.run, Store.claimNextJudging]
    cases hi : s.nextDispatchable with
    | none => exact beside_commit none raised
    | some i =>
      have hother : ∀ j recorded, ruling = .heard (some j) recorded → j.id ≠ i.id :=
        fun j recorded => h.ne_next hi
      refine beside_bind (beside_loadSubmission _) (ensures_loadSubmission.mpr ?_)
      intro submission _
      -- the rows that a claim looks up lie beside the ruling
      refine beside_bind (Ruling.beside_read (fun s => s.problems.find? submission.problemId)
        (fun _ => rfl) fun _ _ _ _ _ => rfl) (ensures_ask.mpr ?_)
      refine beside_bind (beside_need _ _) (ensures_need.mpr fun problem _ => ?_)
      refine beside_bind (Ruling.beside_read (fun s => s.languages.find? submission.languageId)
        (fun _ => rfl) fun _ _ _ _ _ => rfl) (ensures_ask.mpr ?_)
      refine beside_bind (beside_need _ _) (ensures_need.mpr fun language _ => ?_)
      refine beside_bind (beside_resolveScripts defaults problem language) ?_
      refine (ensures_resolveScripts defaults problem language).mono ?_
      rintro found _ ⟨rfl, hmissing⟩
      cases found with
      | ok scripts =>
        exact beside_bind_of_forall (Ruling.beside_read (fun s => s.testcasesOf problem.id)
          (fun _ => rfl) fun _ _ _ _ _ => rfl) fun _ _ => beside_commit _ _
      | error missing =>
        have howner : (∃ id, missing.owner = .language id) ∨ ∃ id, missing.owner = .problem id :=
          (hmissing missing rfl).imp (fun h => ⟨_, h⟩) fun h => ⟨_, h⟩
        refine beside_bind (beside_putBack hother submission.contestId howner) ?_
        refine (ensures_putBack_spares hi submission.contestId howner).mono ?_
        intro event s₁ hspares
        exact ih (h.of_brief (hspares.brief host hne.symm)) (raised ++ [event])

/-- **A claim** runs beside a ruling on what another judgehost holds. -/
theorem beside_claimJudging (hne : host ≠ hostname) (h : ruling.IsAbout s host)
    (defaults : DefaultScripts) (rounds : Nat) :
    (claimJudging defaults rounds hostname n₂).Beside (ruling.apply host n₁) s := by
  refine beside_bind (beside_heartbeat hne) (ensures_heartbeat.mpr ?_)
  cases s.admits hostname with
  | false => exact beside_commit none []
  | true =>
    exact beside_claimRounds hne (h.of_brief (Store.brief_touchJudgehost hne.symm n₂)) defaults
      rounds []

end Dispatch

/-- **A request to claim** is answered alike before and after a ruling on what
another judgehost holds, which may be applied after the claim too. -/
theorem Ruling.IsAbout.perform_claimJudging {w : World} {ruling : Ruling} {host hostname : String}
    (h : ruling.IsAbout w.store host) (hne : host ≠ hostname) (now : Instant) (ctx : Context)
    (b : Blobs) :
    ((Operation.claimJudging hostname).perform ctx ⟨ruling.apply host now w.store, b⟩).answer =
        ((Operation.claimJudging hostname).perform ctx w).answer ∧
      ((Operation.claimJudging hostname).perform ctx
          ⟨ruling.apply host now w.store, b⟩).world.store =
        ruling.apply host now ((Operation.claimJudging hostname).perform ctx w).world.store := by
  have htargets : (ruling.apply host now w.store).enabledTargets = w.store.enabledTargets :=
    Ruling.apply_congr Store.enabledTargets (fun _ _ _ _ _ => rfl) ruling host now w.store
  simp only [Operation.perform, htargets]
  exact transact_beside (Dispatch.beside_claimJudging hne h ctx.scripts _) ctx b

end JudgeQueue
