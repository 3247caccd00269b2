import JudgeQueue.Proofs.Reachable.Claim
import JudgeQueue.Proofs.Reachable.Recovery
/-!
# Reachable worlds — switching on what was switched off

A claim switches off what names a missing script, and a report switches off what
it blames. Either raises internal errors that keep their targets, and nothing
switches a target off that was not on. So resolving what has been raised, in
whatever order, brings every flag back.
-/

namespace JudgeQueue

open Transaction

/-! ## What claims and reports switch off -/

namespace Store

variable {s s' : Store} {bs : List SetBack} {now : Instant}

/-- The internal errors that are raised for jobs that are put back. -/
def errorsOf (s : Store) (bs : List SetBack) (now : Instant) : List InternalError :=
  bs.mapIdx fun i b => (b.error now).opened (s.lastInternalError + 1 + i)

/-- They keep what they blame. -/
theorem map_target_errorsOf (hfits : s.Fits) (hon : ∀ b ∈ bs, b.missing.owner ∈ s.enabled)
    (now : Instant) :
    (s.errorsOf bs now).map InternalError.target = bs.map fun b => b.missing.owner := by
  refine List.ext_getElem (by simp [errorsOf]) fun i hi _ => ?_
  rw [List.getElem_map, List.getElem_map]
  simp only [errorsOf, List.getElem_mapIdx]
  exact hfits.ofValue_toValue (hon _ (List.getElem_mem _))

/-- What is blamed is off, if it was there to be switched. -/
theorem PutsBack.flag (h : s.PutsBack s' bs now) (hon : ∀ b ∈ bs, b.missing.owner ∈ s.enabled)
    (t : DisableTarget) :
    s'.flag t = if t ∈ bs.map (fun b => b.missing.owner) then (s.flag t).map fun _ => false
      else s.flag t := by
  have hblamed : ∀ t, (bs.any fun b => b.missing.owner = t) = true ↔
      t ∈ bs.map fun b => b.missing.owner := by
    intro t
    simp
  cases t with
  | problem id =>
    have hset := Table.map_find?_update (t := s.problems)
      (f := fun p => { p with allowJudge := false }) (fun _ => rfl)
      (q := fun id => bs.any fun b => b.missing.owner = .problem id) (fun _ => rfl)
      Problem.allowJudge (fun _ => rfl) id
    rw [Store.flag, Store.flag, h.problems]
    exact hset.trans (if_congr (hblamed _) rfl rfl)
  | language id =>
    have hset := Table.map_find?_update (t := s.languages)
      (f := fun l => { l with allowJudge := false }) (fun _ => rfl)
      (q := fun id => bs.any fun b => b.missing.owner = .language id) (fun _ => rfl)
      Language.allowJudge (fun _ => rfl) id
    rw [Store.flag, Store.flag, h.languages]
    exact hset.trans (if_congr (hblamed _) rfl rfl)
  | judgehost | unknown =>
    -- a claim blames problems and languages only
    rw [if_neg]
    · rw [h.frame]
      rfl
    · intro ht
      obtain ⟨b, hb, howner⟩ := List.mem_map.mp ht
      have henabled := hon b hb
      rw [howner, enabled] at henabled
      simp at henabled

/-- **Jobs that are put back** switch off what they blame. -/
theorem PutsBack.switchesOff (h : s.PutsBack s' bs now) (hfits : s.Fits)
    (hon : ∀ b ∈ bs, b.missing.owner ∈ s.enabled) : s.SwitchesOff s' (s.errorsOf bs now) := by
  have htargets := map_target_errorsOf hfits hon now
  have hwas : ∀ t ∈ bs.map (fun b => b.missing.owner), s.flag t = some true := by
    intro t ht
    obtain ⟨b, hb, rfl⟩ := List.mem_map.mp ht
    exact flag_of_mem_enabled (hon b hb)
  refine ⟨h.internalErrors, fun e he => ?opened, fun e he => ?on, fun t => ?flag⟩
  case opened =>
    obtain ⟨i, hi, rfl⟩ := List.mem_mapIdx.mp he
    rfl
  case on => exact hwas e.target (htargets ▸ List.mem_map_of_mem he)
  case flag =>
    rw [htargets, h.flag hon]
    split
    · next ht => rw [hwas t ht, Option.map_some]
    · rfl

/-- A pass that hands something out switches no more. -/
theorem SwitchesOff.claim {p : Pass} {hostname : String} {es : List InternalError}
    (h : s.SwitchesOff (s.setBackAll p.setBacks now) es) :
    s.SwitchesOff (s.claim p hostname now) es := by
  unfold Store.claim
  cases p.handedOut with
  | none => exact h
  | some => exact h.congr rfl fun t => by cases t <;> rfl

/-- That a judgehost has been heard of before does not matter. -/
theorem SwitchesOff.of_touchJudgehost {hostname : String} {es : List InternalError}
    (h : (s.touchJudgehost hostname now).SwitchesOff s' es) : s.SwitchesOff s' es where
  raised := h.raised
  opened := h.opened
  on e he := by
    rw [← flag_touchJudgehost s hostname now]
    exact h.on e he
  flag t := by
    rw [h.flag, flag_touchJudgehost]

/-- **An error that is raised** switches off its target, if that was on. -/
theorem switchesOff_raise (hle : ∀ e ∈ s.internalErrors, e.id ≤ s.lastInternalError)
    (new : NewInternalError) (hon : s.flag (.ofValue new.disabled) = some true) :
    s.SwitchesOff ((s.insertInternalError new).2.switch false (.ofValue new.disabled))
      [(s.insertInternalError new).1] := by
  have htarget : (s.insertInternalError new).1.target = .ofValue new.disabled := rfl
  have hinsert : ∀ t, (s.insertInternalError new).2.flag t = s.flag t := by
    intro t
    cases t <;> rfl
  refine ⟨?raised, fun e he => ?opened, fun e he => ?on, fun t => ?flag⟩
  case raised =>
    rw [internalErrors_switch]
    exact rows_insertInternalError hle new
  case opened =>
    rw [List.mem_singleton.mp he]
    rfl
  case on => rw [List.mem_singleton.mp he, htarget, hon]
  case flag =>
    rw [flag_switch, hinsert, List.map_singleton, htarget]
    by_cases ht : t = .ofValue new.disabled
    · rw [if_pos ht, if_pos (List.mem_singleton.mpr ht), ht, hon, Option.map_some]
    · rw [if_neg ht, if_neg fun hmem => ht (List.mem_singleton.mp hmem)]

end Store

variable {w : World}

/-- **A claim** switches off what it blames, whether it hands out a judging or
not. -/
theorem Dispatch.exists_run_claimJudging (h : w.store.OnCourse) (hfits : w.store.Fits)
    (defaults : DefaultScripts) {rounds : Nat} (hrounds : w.store.enabledTargets < rounds)
    (hostname : String) (now : Instant) :
    ∃ payload events s' es, (claimJudging defaults rounds hostname now).run w =
        (.ok (.commit payload events), { w with store := s' }) ∧ w.store.SwitchesOff s' es := by
  let w₁ : World := { w with store := w.store.touchJudgehost hostname now }
  have hheard := run_heartbeat (w := w) hostname now
  cases hadmits : w.store.admits hostname with
  | false =>
    rw [hadmits] at hheard
    refine ⟨none, [], w₁.store, [], ?_, Store.SwitchesOff.of_touchJudgehost .nil⟩
    rw [claimJudging, run_bind hheard, if_neg Bool.false_ne_true]
    rfl
  | true =>
    rw [hadmits] at hheard
    have hidle : ∀ j ∈ w₁.store.judgings, j.lifecycle = .queued → j.unclaimed = j :=
      fun j hj hl => Judging.unclaimed_eq hl (h.shaped j hj)
    have hrun := run_claimRounds (w := w₁) defaults hidle
      (Nat.lt_of_le_of_lt (w₁.store.length_setBacks_le defaults) hrounds) [] hostname now
    have hback : w₁.store.PutsBack (w₁.store.setBackAll (w₁.store.claimPass defaults).setBacks now)
        (w₁.store.claimPass defaults).setBacks now := by
      refine Store.putsBack_setBackAll h.error_le fun b hb => ?_
      obtain ⟨-, hmissing, -⟩ := mem_setBacks (w₁.store.blamesOwn_scriptsOf defaults) hb
      exact w₁.store.blamesOwn_scriptsOf defaults _ _ hmissing
    have hoff := hback.switchesOff hfits fun b hb => Store.owner_mem_enabled hb
    refine ⟨_, _, w₁.store.claim (w₁.store.claimPass defaults) hostname now, _,
      (run_bind hheard).trans hrun, hoff.claim.of_touchJudgehost⟩

/-- **A report** raises one error, which keeps what it has switched off. -/
theorem Incident.exists_run_report (h : w.store.OnCourse) (r : IncidentReport) (now : Instant)
    (hon : w.store.flag (.ofValue r.disabled) = some true) :
    ∃ raised events s', (report r now).run w =
        (.ok (.commit raised events), { w with store := s' }) ∧
      raised.error.target = .ofValue r.disabled ∧ w.store.SwitchesOff s' [raised.error] := by
  obtain ⟨o, s', hrun, hrequeues⟩ := run_report h r now
  have hoff := Store.switchesOff_raise h.error_le (r.failure now) hon
  -- requeueing a judging switches nothing
  have herrors := congrArg Store.internalErrors hrequeues.frame
  refine ⟨_, _, s', hrun, rfl, hoff.congr herrors fun t => ?_⟩
  rw [hrequeues.frame]
  cases t <;> rfl

/-! ## Resolving what has been raised -/

/-- The requests that resolve internal errors one after another. -/
def Operation.resolveAll (surroundings : Int → Context) (es : List InternalError) :
    List (Operation ClosedError × Context) :=
  es.map fun e => (.resolveError e.id .resolved, surroundings e.id)

/-- **Open errors are resolved** one after another. Each switches its own target
on, and leaves the others open. -/
theorem performAll_resolveAll {surroundings : Int → Context}
    (hfaults : ∀ id, (surroundings id).faults = .none) {es : List InternalError}
    (hopen : ∀ e ∈ es, e ∈ w.store.internalErrors ∧ e.status = .opened)
    (hnodup : (es.map InternalError.id).Nodup) :
    ∃ s', Operation.performAll (Operation.resolveAll surroundings es) w =
        ⟨es.map fun e => .ok ⟨e.marked .resolved, some e.target⟩, { w with store := s' }, []⟩ ∧
      ∀ t, s'.flag t = if t ∈ es.map InternalError.target then (w.store.flag t).map fun _ => true
        else w.store.flag t := by
  induction es generalizing w with
  | nil => exact ⟨w.store, rfl, fun t => (if_neg List.not_mem_nil).symm⟩
  | cons e rest ih =>
    obtain ⟨⟨he, hopened⟩, hrest⟩ := List.forall_mem_cons.mp hopen
    obtain ⟨hne, hnodup⟩ := List.nodup_cons.mp hnodup
    let w₁ : World :=
      { w with store := (w.store.closeError e.id .resolved).switch true e.target }
    have hfirst : (Operation.resolveError e.id .resolved).perform (surroundings e.id) w =
        ⟨.ok ⟨e.marked .resolved, some e.target⟩, w₁, []⟩ :=
      transact_run (hfaults e.id) (Incident.run_resolve he hopened)
    have hopen₁ : ∀ f ∈ rest, f ∈ w₁.store.internalErrors ∧ f.status = .opened := by
      intro f hf
      obtain ⟨hmem, hopened⟩ := hrest f hf
      refine ⟨?_, hopened⟩
      rw [Store.internalErrors_switch, Store.closeError, Table.mem_modify]
      exact .inr ⟨hmem, fun heq => hne (heq ▸ List.mem_map_of_mem hf)⟩
    obtain ⟨s', hothers, hflag⟩ := ih hopen₁ hnodup
    refine ⟨s', ?_, fun t => ?_⟩
    · rw [Operation.resolveAll, List.map_cons, Operation.performAll, hfirst]
      simp only
      rw [← Operation.resolveAll, hothers]
      rfl
    · have hswitched : w₁.store.flag t =
          if t = e.target then (w.store.flag t).map fun _ => true else w.store.flag t :=
        Store.flag_switch _ true e.target t
      rw [hflag, hswitched, List.map_cons]
      by_cases ht : t = e.target <;> by_cases hmem : t ∈ rest.map InternalError.target <;>
        simp [ht, hmem]

namespace World

/-- Everything that has been raised since can be undone: resolved in whatever
order, all of it is closed and every flag is what it was. -/
def Restores (w w' : World) : Prop :=
  ∀ surroundings : Int → Context, (∀ id, (surroundings id).faults = .none) →
    ∀ es : List InternalError, es.Perm (w.store.raisedSince w'.store) →
      ∃ s', Operation.performAll (Operation.resolveAll surroundings es) w' =
          ⟨es.map fun e => .ok ⟨e.marked .resolved, some e.target⟩, { w' with store := s' }, []⟩ ∧
        ∀ t, s'.flag t = w.store.flag t

/-- A single error that has been raised since decides on its target: resolved it
leaves every flag as it was, ignored it leaves the target off and nothing
else. -/
structure Decides (w w' : World) (e : InternalError) (t : DisableTarget) : Prop where
  target : e.target = t
  resolved : ∀ ctx : Context, ctx.faults = .none →
    ∃ s', (Operation.resolveError e.id .resolved).perform ctx w' =
        ⟨.ok ⟨e.marked .resolved, some t⟩, { w' with store := s' }, []⟩ ∧
      ∀ u, s'.flag u = w.store.flag u
  ignored : ∀ ctx : Context, ctx.faults = .none →
    ∃ s', (Operation.resolveError e.id .ignored).perform ctx w' =
        ⟨.ok ⟨e.marked .ignored, none⟩, { w' with store := s' }, []⟩ ∧
      ∀ u, s'.flag u = if u = t then some false else w.store.flag u

variable {w' : World} {es : List InternalError}

/-- **What has been switched off comes back.** -/
theorem restores_of_switchesOff (h : w.store.SwitchesOff w'.store es) : w.Restores w' := by
  intro surroundings hfaults fs hperm
  rw [h.raisedSince_eq] at hperm
  have hnodup : (fs.map InternalError.id).Nodup :=
    (hperm.map InternalError.id).nodup_iff.mpr h.nodup
  obtain ⟨s', hperform, hflag⟩ := performAll_resolveAll (w := w') hfaults
    (fun e he => ⟨h.mem (hperm.mem_iff.mp he), h.opened e (hperm.mem_iff.mp he)⟩) hnodup
  refine ⟨s', hperform, fun t => ?_⟩
  have hsame : t ∈ fs.map InternalError.target ↔ t ∈ es.map InternalError.target :=
    (hperm.map InternalError.target).mem_iff
  rw [hflag, h.flag]
  by_cases ht : t ∈ es.map InternalError.target
  · obtain ⟨e, he, rfl⟩ := List.mem_map.mp ht
    rw [if_pos (hsame.mpr ht), if_pos ht, h.on e he, Option.map_some]
  · rw [if_neg (fun hmem => ht (hsame.mp hmem)), if_neg ht]

/-- So it does with a single error, unless that is ignored. -/
theorem decides_of_switchesOff {e : InternalError} (h : w.store.SwitchesOff w'.store [e]) :
    w.Decides w' e e.target := by
  have he : e ∈ w'.store.internalErrors := h.mem (List.mem_singleton_self e)
  have hopen : e.status = .opened := h.opened e (List.mem_singleton_self e)
  have hflag : ∀ u, w'.store.flag u = if u = e.target then some false else w.store.flag u := by
    intro u
    rw [h.flag, List.map_singleton]
    exact if_congr List.mem_singleton rfl rfl
  refine ⟨rfl, fun ctx hfaults => ?_, fun ctx hfaults => ?_⟩
  · refine ⟨_, transact_run hfaults (Incident.run_resolve he hopen), fun u => ?_⟩
    have hsame : (w'.store.closeError e.id .resolved).flag u = w'.store.flag u := rfl
    rw [Store.flag_switch, hsame, hflag]
    by_cases hu : u = e.target
    · rw [if_pos hu, if_pos hu, hu, h.on e (List.mem_singleton_self e), Option.map_some]
    · rw [if_neg hu, if_neg hu]
  · exact ⟨_, transact_run hfaults (Incident.run_ignore he hopen), hflag⟩

/-- A claim switches off what it raises errors for, and one that fails switches
off nothing. -/
theorem exists_switchesOff_claimJudging (h : w.store.OnCourse) (hfits : w.store.Fits)
    (hostname : String) (ctx : Context) :
    ∃ es, w.store.SwitchesOff
      ((Operation.claimJudging hostname).perform ctx w).world.store es := by
  cases hanswer : ((Operation.claimJudging hostname).perform ctx w).answer with
  | error e =>
    refine ⟨[], ?_⟩
    rw [Operation.perform, (transact_error hanswer).2]
    exact .nil
  | ok payload =>
    obtain ⟨payload, events, s', es, hrun, hoff⟩ := Dispatch.exists_run_claimJudging h hfits
      ctx.scripts (Nat.lt_succ_self _) hostname ctx.now
    refine ⟨es, ?_⟩
    rw [Operation.perform, transact_run_of_ok hrun hanswer]
    exact hoff

/-- **Resolving undoes what was switched off.** In a world that arises from
supplied rows, whose numbers of problems fit in 64 bits, all errors of a claim
can be resolved in any order and bring every flag back. The error of a report
whose target was on is resolved to the same effect; ignored it leaves this target
off and no other. For every target is read back from the form in which it is
stored. -/
theorem resolve_restores (h : w.Arises) :
    (w.store.Fits → ∀ hostname ctx,
      w.Restores ((Operation.claimJudging hostname).perform ctx w).world) ∧
    (∀ report : IncidentReport, w.store.flag (.ofValue report.disabled) = some true → ∀ ctx,
      (ctx.faults = .none →
        ∃ raised, ((Operation.reportError report).perform ctx w).answer = .ok raised) ∧
      ∀ raised, ((Operation.reportError report).perform ctx w).answer = .ok raised →
        w.Decides ((Operation.reportError report).perform ctx w).world raised.error
          (.ofValue report.disabled)) ∧
    ∀ t : DisableTarget, (∀ id, t = .problem id → isInt64 id = true) →
      DisableTarget.ofValue t.toValue = t := by
  refine ⟨fun hfits hostname ctx => ?claim, fun report hon ctx => ?report,
    fun t => DisableTarget.ofValue_toValue⟩
  case claim =>
    obtain ⟨es, hoff⟩ := exists_switchesOff_claimJudging h.onCourse hfits hostname ctx
    exact restores_of_switchesOff hoff
  case report =>
    obtain ⟨raised, events, s', hrun, htarget, hoff⟩ :=
      Incident.exists_run_report h.onCourse report ctx.now hon
    refine ⟨fun hfaults => ?_, fun raised' hanswer => ?_⟩
    · rw [Operation.perform, transact_run hfaults hrun]
      exact ⟨raised, rfl⟩
    · have hperform : (Operation.reportError report).perform ctx w =
          ⟨.ok raised, { w with store := s' }, events⟩ := transact_run_of_ok hrun hanswer
      rw [hperform] at hanswer ⊢
      cases hanswer
      rw [← htarget]
      exact decides_of_switchesOff hoff

/-- In the broken queue a claim switches a problem and a language off, and raises
an error for each. Resolved in either order they bring both back. A report that
blames the other language is resolved or ignored. -/
theorem restores_brokenQueued :
    brokenQueued.Arises ∧ brokenQueued.store.Fits ∧
    (brokenQueued.store.raisedSince (brokenQueued.after (.claimJudging "host")).store).map
      (fun e => (e.id, e.target)) = [(1, .problem 2), (2, .language "d")] ∧
    (brokenQueued.after (.claimJudging "host")).store.flag (.problem 2) = some false ∧
    (brokenQueued.after (.claimJudging "host")).store.flag (.language "d") = some false ∧
    brokenQueued.Restores (brokenQueued.after (.claimJudging "host")) ∧
    brokenQueued.store.flag (.language "c") = some true ∧
    ∃ raised : RaisedError,
      brokenQueued.Decides (brokenQueued.after (.reportError
        ⟨"", "", (DisableTarget.language "c").toValue, none, none⟩)) raised.error
        (.ofValue (DisableTarget.language "c").toValue) := by
  have harises := reachable_brokenQueued.arises
  have hfits : brokenQueued.store.Fits := by
    have hrows : ∀ p ∈ brokenQueued.store.problems.rows, isInt64 p.id = true := by decide +kernel
    exact hrows
  have hon : brokenQueued.store.flag (.ofValue (DisableTarget.language "c").toValue) =
      some true := by
    decide +kernel
  obtain ⟨hclaim, hreport, -⟩ := resolve_restores harises
  obtain ⟨hanswered, hdecides⟩ := hreport
    ⟨"", "", (DisableTarget.language "c").toValue, none, none⟩ hon contestContext
  obtain ⟨raised, hraised⟩ := hanswered rfl
  refine ⟨harises, hfits, ?_, ?_, ?_, hclaim hfits "host" contestContext, ?_, raised,
    hdecides raised hraised⟩ <;> decide +kernel

end World

end JudgeQueue
