import JudgeQueue.Proofs.Sound.Keeps
/-!
# Traces of requests — what they share

A body traces a store if whatever it commits is a trace of changes with just
the events that it publishes. The rules below follow the lookups and the
heartbeat that requests begin with, and read the queries that change
judgings in the form that changes have.
-/

namespace JudgeQueue

open Transaction

variable {α : Type} {now : Instant} {s t : Store}

/-- Whatever the body commits is a trace at this instant, with its events. -/
def Transaction.Traces (body : Transaction (Ending α)) (now : Instant) (s : Store) : Prop :=
  body.Commits s fun _ es s' => Trace now s es s'

/-- Soundness is kept by every trace. -/
theorem Store.Sound.trace {es : List Event} (h : s.Sound) (ht : Trace now s es t) : t.Sound :=
  ht.keeps (fun hc hs => hs.change hc) h

/-- Nothing that is committed is a trace of no changes. -/
theorem traces_commit (a : α) : (commit a []).Traces now s :=
  commits_commit.mpr .refl

theorem traces_rollback (a : α) : (rollback a).Traces now s :=
  commits_rollback

theorem traces_fail (e : Error) : (Transaction.fail e : Transaction (Ending α)).Traces now s :=
  commits_fail

/-- What is traced from a later store is traced from an earlier one, if the
changes between them publish nothing. -/
theorem Transaction.Traces.after {body : Transaction (Ending α)} (h : body.Traces now t)
    (ht : Trace now s [] t) : body.Commits t fun _ es s' => Trace now s es s' :=
  h.mono fun _ _ _ ht' => ht.trans ht'

/-! ## Lookups -/

theorem ensures_loadSubmission {id : Int} {Q : Submission → Store → Prop} :
    (loadSubmission id).Ensures s Q ↔ ∀ r, s.submissions.find? id = some r → Q r s := by
  simp only [loadSubmission, ensures_bind, ensures_ask, Query.run, ensures_need]

theorem ensures_loadJudging {id : Int} {Q : Judging → Store → Prop} :
    (loadJudging id).Ensures s Q ↔ ∀ j, s.judgings.find? id = some j → Q j s := by
  simp only [loadJudging, ensures_bind, ensures_ask, Query.run, ensures_need]

/-- A judging that is found is held under its id. -/
theorem Store.mem_of_find?_judging {id : Int} {j : Judging} (h : s.judgings.find? id = some j) :
    j ∈ s.judgings ∧ j.id = id :=
  ⟨Table.mem_of_find? h, Table.key_of_find? h⟩

theorem Store.mem_of_find?_submission {id : Int} {r : Submission}
    (h : s.submissions.find? id = some r) : r ∈ s.submissions ∧ r.id = id :=
  ⟨Table.mem_of_find? h, Table.key_of_find? h⟩

/-! ## The heartbeat -/

/-- Whether a judgehost may get work: it is known and switched on. -/
def Store.admits (s : Store) (hostname : String) : Bool :=
  (s.judgehosts.find? hostname).any Judgehost.active

theorem Store.admits_iff {hostname : String} :
    s.admits hostname = true ↔ ∃ h ∈ s.judgehosts, h.hostname = hostname ∧ h.active = true := by
  rw [admits, Option.any_eq_true]
  constructor
  · rintro ⟨h, hfind, hactive⟩
    exact ⟨h, Table.mem_of_find? hfind, Table.key_of_find? hfind, hactive⟩
  · rintro ⟨h, hh, rfl, hactive⟩
    exact ⟨h, Table.find?_key hh, hactive⟩

/-- Recording a call of a judgehost that is not known changes nothing. -/
theorem Store.touchJudgehost_of_unknown {hostname : String}
    (hnone : s.judgehosts.find? hostname = none) (now : Instant) :
    s.touchJudgehost hostname now = s := by
  have hmissing : ∀ h ∈ s.judgehosts, key h ≠ hostname := by
    intro h hh hkey
    have hknown := Table.contains_iff.mpr ⟨h, hh, hkey⟩
    rw [Table.contains, hnone] at hknown
    cases hknown
  rw [touchJudgehost, Table.modify, Table.update_eq_self fun h hh hkey =>
    absurd (of_decide_eq_true hkey) (hmissing h hh)]

/-- A judgehost that calls may get work afterwards if it might before. -/
theorem Store.admits_touchJudgehost (hostname : String) (now : Instant) :
    (s.touchJudgehost hostname now).admits hostname = s.admits hostname := by
  rw [admits, admits, touchJudgehost, Table.find?_modify, Option.any_map]
  congr 1
  funext h
  split <;> rfl

/-- **The heartbeat** records the call, and answers whether the judgehost may
get work. -/
theorem ensures_heartbeat {hostname : String} {Q : Bool → Store → Prop} :
    (heartbeat hostname now).Ensures s Q ↔
      Q (s.admits hostname) (s.touchJudgehost hostname now) := by
  simp only [heartbeat, ensures_bind, ensures_ask, Query.run]
  cases hfind : s.judgehosts.find? hostname with
  | none =>
    rw [Store.touchJudgehost_of_unknown hfind, Store.admits, hfind]
    exact Iff.rfl
  | some host =>
    rw [Store.admits, hfind]
    simp only [ensures_bind, ensures_ask, Query.run, ensures_pure, Option.any_some]

/-- It is a silent change. -/
theorem traces_heartbeat {hostname : String} {now : Instant} {f : Bool → Transaction (Ending α)}
    (hs : s.Sound) (hf : ∀ t b, t.Sound → (b = true → t.admits hostname = true) →
      (f b).Traces now t) : (heartbeat hostname now >>= f).Traces now s := by
  have hc : Change now s [] (s.touchJudgehost hostname now) := .touchJudgehost hostname
  rw [Traces, commits_bind, ensures_heartbeat]
  refine (hf _ (s.admits hostname) (hs.change hc) fun hb => ?_).after (.of_change hc)
  rwa [Store.admits_touchJudgehost]

/-! ## Queries in the form of changes -/

namespace Judging

/-- Setting a flag where it differs is setting it. -/
theorem ite_counted (j : Judging) (c p : Bool) :
    (if (j.counted ≠ c && p) = true then { j with counted := c } else j) =
      { j with counted := if p then c else j.counted } := by
  cases p with
  | false => simp
  | true =>
    by_cases hc : j.counted = c
    · subst hc
      simp
    · simp [hc]

/-- A patch of the activity changes nothing else. -/
theorem apply_setActive (j : Judging) (a : Bool) :
    (JudgingPatch.setActive a).apply j = { j with active := a } := by
  simp [JudgingPatch.setActive, JudgingPatch.apply]

/-- Setting the activity of some judgings, row by row. -/
theorem ite_active (j : Judging) (a p : Bool) :
    (if p = true then (JudgingPatch.setActive a).apply j else j) =
      { j with active := if p then a else j.active } := by
  rw [apply_setActive]
  cases p <;> rfl

end Judging

namespace Store

theorem insertJudging_eq {new : NewJudging} :
    s.insertJudging new =
      if s.submissions.contains new.submissionId then
        .ok (new.queued (s.lastJudging + 1), s.queue new)
      else .error (.conflict (.noSubmission new.submissionId)) := rfl

/-- A patch of the judging of an id. -/
theorem updateJudgings_ofId {id : Int} {p : JudgingPatch} :
    (s.updateJudgings (.ofIds [id]) p).2 =
      { s with judgings := s.judgings.modify id p.apply p.key_apply } := by
  have hjud : s.judgings.update (JudgingFilter.ofIds [id]).admits p.apply p.key_apply =
      s.judgings.modify id p.apply p.key_apply := by
    refine Table.update_congr fun j _ => ?_
    have hadmits : (JudgingFilter.ofIds [id]).admits j = decide (key j = id) := by
      simp [JudgingFilter.admits, JudgingFilter.ofIds, key]
    rw [hadmits]
  change { s with judgings := s.judgings.update _ p.apply p.key_apply } = _
  rw [hjud]

/-- Writing back the judging of an id changes it as any function does that
leads to what is written. -/
theorem updateJudging_eq {i j : Judging} (hi : i ∈ s.judgings) (hid : j.id = i.id)
    {f : Judging → Judging} (hf : ∀ j, key (f j) = key j)
    (h : { j with id := i.id, counted := i.counted } = f i) :
    s.updateJudging j = .ok { s with judgings := s.judgings.modify i.id f hf } := by
  have hcontains : s.judgings.contains j.id = true :=
    Table.contains_iff.mpr ⟨i, hi, hid.symm⟩
  rw [updateJudging, if_pos hcontains]
  congr 2
  rw [hid]
  refine Table.modify_congr fun a ha hkey => ?_
  rw [judging_eq ha hi hkey]
  exact h

/-- Whether a judging is among some judgings of its store, told by its id. -/
theorem contains_ids_filter {p : Judging → Bool} {j : Judging} (hj : j ∈ s.judgings) :
    ((s.judgings.filter p).map Judging.id).contains j.id = p j := by
  rw [Bool.eq_iff_iff, List.contains_iff_mem, List.mem_map]
  constructor
  · rintro ⟨i, hi, hid⟩
    obtain ⟨himem, hp⟩ := Table.mem_filter.mp hi
    rwa [← judging_eq himem hj hid]
  · intro hp
    exact ⟨j, Table.mem_filter.mpr ⟨hj, hp⟩, rfl⟩

/-- The ids of some judgings of a store do not repeat. -/
theorem nodup_ids_filter (p : Judging → Bool) : ((s.judgings.filter p).map Judging.id).Nodup :=
  s.judgings.nodup_keys.sublist (List.filter_sublist.map _)

end Store

end JudgeQueue
