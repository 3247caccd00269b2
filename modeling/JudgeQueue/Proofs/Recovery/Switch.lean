import JudgeQueue.Proofs.Course.Change
import JudgeQueue.Proofs.Dispatch.Jobs
import JudgeQueue.Proofs.Transaction.Run
/-!
# Recovery — targets that are switched on again

An internal error switches its target off and keeps it in the form in which it
was reported. Resolving the error switches on what is read back from that form;
ignoring it switches nothing. A target has one flag, whichever table it lies in,
and switching it leaves all others alone.
-/

namespace JudgeQueue

open Transaction

/-- One column of a table once it has been set in the rows of some keys. -/
theorem Table.map_find?_update {α β κ : Type} [Keyed α κ] [Ord κ] [Std.LawfulEqOrd κ]
    [DecidableEq κ] {t : Table α} {p : α → Bool} {f : α → α} (hf : ∀ a, key (f a) = key a)
    {q : κ → Bool} (hkey : ∀ a, p a = q (key a)) (column : α → β) {b : β}
    (hset : ∀ a, column (f a) = b) (k : κ) :
    ((t.update p f hf).find? k).map column =
      if q k then ((t.find? k).map column).map fun _ => b else (t.find? k).map column := by
  rw [find?_update, Option.map_map, Option.map_map]
  cases hfind : t.find? k with
  | none => exact (ite_self none).symm
  | some a =>
    have hk : key a = k := key_of_find? hfind
    rw [Option.map_some, Option.map_some, Option.map_some, Function.comp_apply, hkey, hk]
    by_cases hq : q k = true
    · rw [if_pos hq, if_pos hq, hset]
      rfl
    · rw [if_neg hq, if_neg hq]

namespace Store

/-- Whether a target is switched on, if there is such a target. -/
def flag (s : Store) : DisableTarget → Option Bool
  | .language id => (s.languages.find? id).map Language.allowJudge
  | .judgehost hostname => (s.judgehosts.find? hostname).map Judgehost.active
  | .problem id => (s.problems.find? id).map Problem.allowJudge
  | .unknown => none

/-- The store once a target is switched on or off. -/
def switch (s : Store) (enabled : Bool) : DisableTarget → Store
  | .language id => s.setLanguageAllowed id enabled
  | .judgehost hostname => s.setJudgehostActive hostname enabled
  | .problem id => s.setProblemAllowed id enabled
  | .unknown => s

/-- The store once an internal error has another status. -/
def closeError (s : Store) (id : Int) (status : ErrorStatus) : Store :=
  { s with
    internalErrors := s.internalErrors.modify id (.marked status)
      (InternalError.key_marked status) }

variable {s s' : Store}

/-- **Switching a target** sets its flag, and no other. -/
theorem flag_switch (s : Store) (enabled : Bool) (t u : DisableTarget) :
    (s.switch enabled t).flag u = if u = t then (s.flag u).map fun _ => enabled else s.flag u := by
  cases t with
  | language id =>
    cases u with
    | language id' =>
      have hset := Table.map_find?_update (t := s.languages)
        (f := fun l => { l with allowJudge := enabled }) (fun _ => rfl) (q := fun k => k = id)
        (fun _ => rfl) Language.allowJudge (fun _ => rfl) id'
      exact hset.trans (if_congr (by simp) rfl rfl)
    | _ => exact (if_neg (by simp)).symm
  | judgehost hostname =>
    cases u with
    | judgehost hostname' =>
      have hset := Table.map_find?_update (t := s.judgehosts)
        (f := fun h => { h with active := enabled }) (fun _ => rfl) (q := fun k => k = hostname)
        (fun _ => rfl) Judgehost.active (fun _ => rfl) hostname'
      exact hset.trans (if_congr (by simp) rfl rfl)
    | _ => exact (if_neg (by simp)).symm
  | problem id =>
    cases u with
    | problem id' =>
      have hset := Table.map_find?_update (t := s.problems)
        (f := fun p => { p with allowJudge := enabled }) (fun _ => rfl) (q := fun k => k = id)
        (fun _ => rfl) Problem.allowJudge (fun _ => rfl) id'
      exact hset.trans (if_congr (by simp) rfl rfl)
    | _ => exact (if_neg (by simp)).symm
  | unknown =>
    cases u with
    | unknown => rfl
    | _ => exact (if_neg (by simp)).symm

/-- A judgehost that is heard of is not switched. -/
theorem flag_touchJudgehost (s : Store) (hostname : String) (now : Instant) (t : DisableTarget) :
    (s.touchJudgehost hostname now).flag t = s.flag t := by
  cases t with
  | judgehost name =>
    rw [flag, flag, touchJudgehost, Table.find?_modify, Option.map_map]
    congr 1
    funext h
    rw [Function.comp_apply]
    split <;> rfl
  | language | problem | unknown => rfl

theorem switch_false (s : Store) (t : DisableTarget) : s.switch false t = s.switchOff t := by
  cases t <;> rfl

theorem internalErrors_switch (s : Store) (enabled : Bool) (t : DisableTarget) :
    (s.switch enabled t).internalErrors = s.internalErrors := by
  cases t <;> rfl

/-- Switching a target is bookkeeping. -/
theorem OnCourse.switch (h : s.OnCourse) (enabled : Bool) (t : DisableTarget) :
    (s.switch enabled t).OnCourse := by
  cases t with
  | language | judgehost | problem =>
    -- none of the tables that a course is about is touched
    refine ⟨?_, h.shaped, h.error_le⟩
    exact h.sound.of_eq rfl rfl rfl rfl rfl h.sound.runs
  | unknown => exact h

/-- What a claim may switch off is on. -/
theorem flag_of_mem_enabled {t : DisableTarget} (h : t ∈ s.enabled) : s.flag t = some true := by
  rcases List.mem_append.mp h with h | h
  · obtain ⟨p, hp, rfl⟩ := List.mem_map.mp h
    obtain ⟨hp, hon⟩ := Table.mem_filter.mp hp
    have hfind : s.problems.find? p.id = some p := Table.find?_key hp
    rw [flag, hfind, Option.map_some, hon]
  · obtain ⟨l, hl, rfl⟩ := List.mem_map.mp h
    obtain ⟨hl, hon⟩ := Table.mem_filter.mp hl
    have hfind : s.languages.find? l.id = some l := Table.find?_key hl
    rw [flag, hfind, Option.map_some, hon]

/-- It is read back from the form in which an internal error keeps it. -/
theorem Fits.ofValue_toValue (h : s.Fits) {t : DisableTarget} (ht : t ∈ s.enabled) :
    DisableTarget.ofValue t.toValue = t := by
  refine DisableTarget.ofValue_toValue ?_
  rintro id rfl
  rcases List.mem_append.mp ht with ht | ht
  · obtain ⟨p, hp, hid⟩ := List.mem_map.mp ht
    rw [← DisableTarget.problem.inj hid]
    exact h p (Table.mem_filter.mp hp).1
  · obtain ⟨l, -, hid⟩ := List.mem_map.mp ht
    cases hid

/-! ## Errors that have been raised -/

/-- The internal errors of a store that another did not have. -/
def raisedSince (s s' : Store) : List InternalError :=
  s'.internalErrors.filter fun e => !s.internalErrors.contains e.id

/-- Internal errors have been raised. Their targets were on and are off now, and
nothing else has been switched. -/
structure SwitchesOff (s s' : Store) (es : List InternalError) : Prop where
  raised : s'.internalErrors.rows = s.internalErrors.rows ++ es
  opened : ∀ e ∈ es, e.status = .opened
  on : ∀ e ∈ es, s.flag e.target = some true
  flag : ∀ t, s'.flag t = if t ∈ es.map InternalError.target then some false else s.flag t

namespace SwitchesOff

variable {es : List InternalError}

theorem nil : s.SwitchesOff s [] :=
  ⟨(List.append_nil _).symm, fun _ he => absurd he List.not_mem_nil,
    fun _ he => absurd he List.not_mem_nil, fun _ => (if_neg List.not_mem_nil).symm⟩

/-- It only matters which errors there are and which targets are on. -/
theorem congr {s₁ : Store} (h : s.SwitchesOff s₁ es)
    (herrors : s'.internalErrors = s₁.internalErrors) (hflag : ∀ t, s'.flag t = s₁.flag t) :
    s.SwitchesOff s' es :=
  ⟨herrors ▸ h.raised, h.opened, h.on, fun t => (hflag t).trans (h.flag t)⟩

/-- Every error has an id of its own. -/
theorem nodup_append (h : s.SwitchesOff s' es) :
    (s.internalErrors.rows.map key ++ es.map key).Nodup := by
  rw [← List.map_append, ← h.raised]
  exact s'.internalErrors.nodup_keys

theorem nodup (h : s.SwitchesOff s' es) : (es.map InternalError.id).Nodup :=
  (List.nodup_append.mp h.nodup_append).2.1

/-- The errors that have been raised are there. -/
theorem mem (h : s.SwitchesOff s' es) {e : InternalError} (he : e ∈ es) :
    e ∈ s'.internalErrors := by
  rw [← Table.mem_rows, h.raised]
  exact List.mem_append_right _ he

/-- They are all that is new. -/
theorem raisedSince_eq (h : s.SwitchesOff s' es) : s.raisedSince s' = es := by
  have hold : s.internalErrors.rows.filter (fun e => !s.internalErrors.contains e.id) = [] := by
    refine List.filter_eq_nil_iff.mpr fun e he => ?_
    have hcontains : s.internalErrors.contains e.id = true := Table.contains_iff.mpr ⟨e, he, rfl⟩
    rw [hcontains, Bool.not_true]
    exact Bool.false_ne_true
  have hnew : es.filter (fun e => !s.internalErrors.contains e.id) = es := by
    refine List.filter_eq_self.mpr fun e he => ?_
    rw [Bool.not_eq_true', ← Bool.not_eq_true, Table.contains_iff]
    rintro ⟨a, ha, hid⟩
    have hdisjoint := (List.nodup_append.mp h.nodup_append).2.2
    exact hdisjoint _ (List.mem_map_of_mem ha) _ (List.mem_map_of_mem he) hid
  rw [raisedSince, Table.filter, h.raised, List.filter_append, hold, hnew, List.nil_append]

end SwitchesOff

end Store

/-! ## Closing an error -/

variable {w : World}

theorem run_setTargetEnabled (target : DisableTarget) (enabled : Bool) :
    ∃ known, (setTargetEnabled target enabled).run w =
      (.ok known, { w with store := w.store.switch enabled target }) := by
  cases target with
  | language id => exact ⟨w.store.languages.contains id, rfl⟩
  | judgehost hostname => exact ⟨w.store.judgehosts.contains hostname, rfl⟩
  | problem id => exact ⟨w.store.problems.contains id, rfl⟩
  | unknown => exact ⟨false, rfl⟩

namespace Incident

section Close

variable {e : InternalError} (he : e ∈ w.store.internalErrors) (hopen : e.status = .opened)
include he hopen

theorem run_updateInternalErrorStatus (status : ErrorStatus) :
    (ask (.updateInternalErrorStatus e.id status)).run w =
      (.ok (), { w with store := w.store.closeError e.id status }) := by
  have hfind : w.store.internalErrors.find? e.id = some e := Table.find?_key he
  refine run_ask (r := ((), w.store.closeError e.id status)) ?_
  rw [Query.run, Store.updateInternalErrorStatus, hfind]
  simp only
  rw [if_pos hopen]
  rfl

/-- An open error is closed by any other status. -/
theorem run_resolve_of_open {status : ErrorStatus} (hclosing : status ≠ .opened) :
    (resolve e.id status).run w =
      (if status = .resolved then do
        let _ ← setTargetEnabled e.target true
        commit ⟨e.marked status, some e.target⟩ []
      else commit ⟨e.marked status, none⟩ [] : Transaction (Ending ClosedError)).run
        { w with store := w.store.closeError e.id status } := by
  have hfind : w.store.internalErrors.find? e.id = some e := Table.find?_key he
  have hstatus : (unlessError (decide (status ≠ .opened)) (.invalidInput .notClosing)).run w =
      (.ok (), w) := by
    rw [unlessError, if_pos (decide_eq_true hclosing)]
    rfl
  have hmay : (unlessError (decide (e.status = .opened))
      (.conflict (.alreadyClosed e.id e.status))).run w = (.ok (), w) := by
    rw [unlessError, if_pos (decide_eq_true hopen)]
    rfl
  rw [resolve, run_bind hstatus, run_bind (run_ask rfl), hfind,
    run_bind (x := need _ (some e)) rfl]
  refine (run_bind hmay).trans ?_
  rw [run_bind (run_updateInternalErrorStatus he hopen status)]
  rfl

/-- **Resolving an open error** closes it and switches its target on. -/
theorem run_resolve :
    (resolve e.id .resolved).run w =
      (.ok (.commit ⟨e.marked .resolved, some e.target⟩ []),
        { w with store := (w.store.closeError e.id .resolved).switch true e.target }) := by
  obtain ⟨known, hswitch⟩ := run_setTargetEnabled
    (w := { w with store := w.store.closeError e.id .resolved }) e.target true
  rw [run_resolve_of_open he hopen (by decide), if_pos rfl, run_bind hswitch]
  rfl

/-- **Ignoring it** closes it, too, and switches nothing. -/
theorem run_ignore :
    (resolve e.id .ignored).run w =
      (.ok (.commit ⟨e.marked .ignored, none⟩ []),
        { w with store := w.store.closeError e.id .ignored }) := by
  rw [run_resolve_of_open he hopen (by decide), if_neg (by decide)]
  rfl

end Close

end Incident

end JudgeQueue
