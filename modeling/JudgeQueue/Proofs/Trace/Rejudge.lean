import JudgeQueue.Proofs.Trace.Basic
/-!
# Traces of requests — rejudging at once

Rejudging takes the active judging of a submission out of force and its flags
out of the ledger, in two steps with a filter each. Together they retire all
judgings of the submission. Submissions that are rejudged one after another
do not meet, so a batch of them is the chain of its single steps.
-/

namespace JudgeQueue

open Transaction StatisticsDelta

namespace Judging

/-- A judging that is made active, and flagged if it has ended. -/
def promoted (j : Judging) : Judging :=
  { j with active := true, counted := j.counted || j.isFinalized }

theorem key_promoted (j : Judging) : key j.promoted = key j := rfl

end Judging

namespace Store

variable {s : Store} {k : StatisticsKey}

/-! ## Judgings out of force and into force -/

/-- Retires all judgings of some submissions. -/
def retireAll (s : Store) (submissionIds : List Int) : Store :=
  { s with
    judgings := s.judgings.update (fun j => submissionIds.contains j.submissionId) Judging.retired
      Judging.key_retired }

/-- Promotes the judgings of some ids. -/
def promoteAll (s : Store) (ids : List Int) : Store :=
  { s with
    judgings := s.judgings.update (fun j => ids.contains j.id) Judging.promoted
      Judging.key_promoted }

theorem judgings_updateJudgings {f : JudgingFilter} {p : JudgingPatch} :
    (s.updateJudgings f p).2.judgings = s.judgings.update f.admits p.apply p.key_apply := rfl

/-- Setting the activity of judgings does not touch the ledger. -/
theorem tally_setActive (f : JudgingFilter) (a : Bool) :
    (s.updateJudgings f (.setActive a)).2.tally k = s.tally k := by
  refine tally_update judgings_updateJudgings (fun _ => rfl) fun j _ _ => ?_
  rw [Judging.apply_setActive, flagged, flagged]
  exact congrArg (fun w => if j.counted then w else 0) (worth_eq rfl rfl rfl)

/-- So what bridges to a store from one with other active judgings does so from
the store itself. -/
theorem Bridges.of_setActive {f : JudgingFilter} {a : Bool} {ds : List StatisticsDelta}
    {s' : Store} (h : (s.updateJudgings f (.setActive a)).2.Bridges ds s') : s.Bridges ds s' := by
  intro k
  rw [h k, tally_setActive]

/-- **Deactivating judgings and clearing their flags** retires all judgings of
their submissions, if all active ones among these are deactivated. -/
theorem retire_eq {f : JudgingFilter} {ids : List Int}
    (h : ∀ j ∈ s.judgings, f.admits j = (ids.contains j.submissionId && j.active)) :
    ((s.updateJudgings f (.setActive false)).2.setJudgingsCounted (.ofSubmissions ids) false).2 =
      s.retireAll ids := by
  have hjud : ((s.updateJudgings f (.setActive false)).2.setJudgingsCounted
      (.ofSubmissions ids) false).2.judgings =
      s.judgings.update (fun j => ids.contains j.submissionId) Judging.retired
        Judging.key_retired := by
    rw [judgings_setJudgingsCounted, judgings_updateJudgings]
    refine Table.update_update fun j hj => ?_
    rw [Judging.ite_active, Judging.ite_counted, h j hj]
    simp only [JudgingFilter.admits, JudgingFilter.ofSubmissions, Option.all_none, Option.all_some,
      Bool.true_and, Bool.and_true]
    cases ids.contains j.submissionId with
    | false => rfl
    | true =>
      rw [if_pos rfl, if_pos rfl, Judging.retired]
      cases ha : j.active <;> rfl
  exact congrArg (fun judgings => { s with judgings }) hjud

/-- **Activating judgings and counting those that have ended** promotes
them. -/
theorem promote_eq (ids : List Int) :
    ((s.updateJudgings (.ofIds ids) (.setActive true)).2.setJudgingsCounted
      { JudgingFilter.ofIds ids with active := some true, lifecycle := some .finalized } true).2 =
      s.promoteAll ids := by
  have hjud : ((s.updateJudgings (.ofIds ids) (.setActive true)).2.setJudgingsCounted
      { JudgingFilter.ofIds ids with active := some true, lifecycle := some .finalized }
      true).2.judgings =
      s.judgings.update (fun j => ids.contains j.id) Judging.promoted Judging.key_promoted := by
    rw [judgings_setJudgingsCounted, judgings_updateJudgings]
    refine Table.update_update fun j _ => ?_
    rw [Judging.ite_active, Judging.ite_counted]
    simp only [JudgingFilter.admits, JudgingFilter.ofIds, Option.all_none, Option.all_some,
      Bool.and_true]
    cases ids.contains j.id with
    | false => simp
    | true =>
      rw [if_pos rfl, if_pos rfl, Judging.promoted]
      congr 1
      cases hc : j.counted <;> simp [Judging.isFinalized]
  exact congrArg (fun judgings => { s with judgings }) hjud

end Store

namespace Rejudge

variable {now : Instant} {s : Store}

/-! ## One submission -/

/-- The active judgings of a submission, told by their ids. -/
theorem admits_current {current : List Judging} {submissionId : Int}
    (hcurrent : ∀ j, j ∈ current ↔ j ∈ s.judgings ∧ j.submissionId = submissionId ∧ j.active = true)
    {j : Judging} (hj : j ∈ s.judgings) :
    (JudgingFilter.ofIds (current.map Judging.id)).admits j =
      ([submissionId].contains j.submissionId && j.active) := by
  rw [Bool.eq_iff_iff]
  simp only [JudgingFilter.admits, JudgingFilter.ofIds, Option.all_none, Option.all_some,
    Bool.and_true, List.contains_iff_mem, List.mem_map, Bool.and_eq_true, List.mem_singleton]
  constructor
  · rintro ⟨i, hi, hid⟩
    obtain ⟨himem, hsub, hact⟩ := (hcurrent i).mp hi
    rw [← Store.judging_eq himem hj hid]
    exact ⟨hsub, hact⟩
  · rintro ⟨hsub, hact⟩
    exact ⟨j, (hcurrent j).mpr ⟨hj, hsub, hact⟩, rfl⟩

theorem retireAll_singleton (submissionId : Int) :
    s.retireAll [submissionId] =
      { s with
        judgings := s.judgings.update (fun j => j.submissionId = submissionId) Judging.retired
          Judging.key_retired } := by
  have hretire : s.judgings.update (fun j => [submissionId].contains j.submissionId) Judging.retired
      Judging.key_retired = s.judgings.update (fun j => j.submissionId = submissionId)
      Judging.retired Judging.key_retired := by
    refine Table.update_congr fun j _ => ?_
    simp
  rw [Store.retireAll, hretire]

/-- Queueing the fresh judging of a submission does not touch the ledger: it is
not counted, and being active counts for nothing. -/
theorem tally_rejudge (hs : s.Numbered) (submissionId : Int) (fullTest : Bool)
    {k : StatisticsKey} :
    (s.rejudge submissionId fullTest).tally k = (s.retireAll [submissionId]).tally k := by
  rw [retireAll_singleton]
  refine Store.tally_insert rfl (fun _ => rfl) (fun i hi => ?_) rfl
  simp only [Table.mem_update] at hi
  obtain ⟨a, ha, rfl⟩ := hi
  split
  · change a.id ≠ s.lastJudging + 1
    exact hs.ne_next ha
  · exact hs.ne_next ha

/-- **Replacing the active judging** of a submission rejudges it, and the
deltas that are answered bridge the stores. -/
theorem ensures_replaceActive (hs : s.Numbered) (r : Submission) {current : List Judging}
    (hcurrent : ∀ j, j ∈ current ↔ j ∈ s.judgings ∧ j.submissionId = r.id ∧ j.active = true)
    (hhead : current.head? = s.activeOf r.id) (fullTest : Bool) :
    (replaceActive r current fullTest).Ensures s fun out s' =>
      s' = s.rejudge r.id fullTest ∧ s.Bridges out.2 s' := by
  simp only [replaceActive, ensures_bind, ensures_ask, Query.run]
  refine Store.ensures_uncount.mono ?_
  rintro ds _ ⟨rfl, hds⟩
  rw [Store.retire_eq fun j hj => admits_current hcurrent hj] at hds ⊢
  simp only [Store.insertJudging_eq]
  split
  · next hinsert =>
    split at hinsert
    · cases hinsert
      have hrejudge : (s.retireAll [r.id]).queue
          ⟨r.id, true, fullTest, none, current.head?.map Judging.id⟩ = s.rejudge r.id fullTest := by
        rw [retireAll_singleton, hhead, Store.rejudge]
      refine ⟨hrejudge, fun k => ?_⟩
      rw [hrejudge, tally_rejudge hs, hds.of_setActive k]
    · cases hinsert
  · trivial

theorem traces_submission (hs : s.Sound) (submissionId : Int) :
    (Rejudge.submission submissionId).Traces now s := by
  simp only [Traces, Rejudge.submission, commits_bind, ensures_loadSubmission]
  intro r hr
  obtain ⟨hmem, hid⟩ := Store.mem_of_find?_submission hr
  subst hid
  split
  · exact traces_fail _
  · next hfree =>
    simp only [commits_bind, ensures_ask, Query.run]
    have hadmits : ∀ j,
        JudgingFilter.admits { submissionIds := some [r.id], active := some true } j =
          (j.submissionId = r.id && j.active) := by
      intro j
      simp [JudgingFilter.admits]
    refine (ensures_replaceActive hs.numbered r (fun j => ?_) ?_ r.requiresFullTest).mono ?_
    · rw [Table.mem_filter, hadmits, Bool.and_eq_true, decide_eq_true_eq]
    · rw [Table.filter, List.head?_filter, funext hadmits, Store.activeOf]
    · rintro ⟨j, ds⟩ _ ⟨rfl, hds⟩
      have hone : Rejudged s (ds ++ []) (s.rejudge r.id r.requiresFullTest) :=
        .next hmem hfree id hds .none
      rw [List.append_nil] at hone
      exact commits_commit.mpr (.of_change (.rejudge hone fun _ => rfl))

/-! ## Several submissions -/

/-- A submission of a batch with its active judging. -/
structure IsMatch (s : Store) (m : Submission × Judging) : Prop where
  submission : m.1 ∈ s.submissions
  free : m.1.rejudgingId = none
  judging : m.2 ∈ s.judgings
  submissionId : m.2.submissionId = m.1.id
  active : m.2.active = true

/-- Rejudging another submission leaves a match alone. -/
theorem IsMatch.rejudge (hs : s.Numbered) {m : Submission × Judging} (h : IsMatch s m) {id : Int}
    (hne : m.1.id ≠ id) (fullTest : Bool) : IsMatch (s.rejudge id fullTest) m := by
  refine ⟨h.submission, h.free, ?_, h.submissionId, h.active⟩
  refine (Store.mem_judgings_rejudge hs).mpr (.inr ⟨m.2, h.judging, ?_⟩)
  rw [if_neg (h.submissionId ▸ hne)]

/-- The active judging of a match is the one that is found. -/
theorem IsMatch.activeOf (hs : s.Sound) {m : Submission × Judging} (h : IsMatch s m) :
    s.activeOf m.1.id = some m.2 := by
  have hsome : (s.activeOf m.1.id).isSome = true := by
    rw [Store.activeOf, List.find?_isSome]
    exact ⟨m.2, h.judging, by simp [h.submissionId, h.active]⟩
  obtain ⟨j, hj⟩ := Option.isSome_iff_exists.mp hsome
  obtain ⟨hmem, hsub, hact⟩ := Store.mem_of_activeOf hj
  have hsame : j.submissionId = m.2.submissionId := hsub.trans h.submissionId.symm
  rw [hj, hs.authority.active_eq j hmem m.2 h.judging hsame hact h.active]

/-- The submission has no other. -/
theorem IsMatch.mem_current (hs : s.Sound) {m : Submission × Judging} (h : IsMatch s m)
    {j : Judging} :
    j ∈ [m.2] ↔ j ∈ s.judgings ∧ j.submissionId = m.1.id ∧ j.active = true := by
  rw [List.mem_singleton]
  constructor
  · rintro rfl
    exact ⟨h.judging, h.submissionId, h.active⟩
  · rintro ⟨hj, hsub, hact⟩
    exact hs.authority.active_eq j hj m.2 h.judging (hsub.trans h.submissionId.symm) hact h.active

/-- **Rejudging several submissions** is the chain of the single steps. -/
theorem ensures_replaceAll (fullTest : Bool) {ms : List (Submission × Judging)} (hs : s.Sound)
    (hms : ∀ m ∈ ms, IsMatch s m) (hnodup : (ms.map fun m => m.1.id).Nodup) :
    (replaceAll fullTest ms).Ensures s fun out s' => Rejudged s out.2 s' := by
  induction ms generalizing s with
  | nil => exact Rejudged.none
  | cons m rest ih =>
    obtain ⟨r, current⟩ := m
    have hm := hms _ List.mem_cons_self
    obtain ⟨hne, hrest⟩ := List.nodup_cons.mp hnodup
    simp only [replaceAll, ensures_bind, ensures_pure]
    refine (ensures_replaceActive hs.numbered r (fun j => hm.mem_current hs)
      (hm.activeOf hs).symm _).mono ?_
    rintro ⟨j, ds⟩ _ ⟨rfl, hds⟩
    refine (ih (hs.rejudge hm.submission _) (fun m' hm' => ?_) hrest).mono fun out s' ht => ?_
    · refine (hms m' (List.mem_cons_of_mem _ hm')).rejudge hs.numbered (fun heq => hne ?_) _
      exact List.mem_map.mpr ⟨m', hm', heq⟩
    · exact .next hm.submission hm.free (fun hfull => by rw [hfull, Bool.or_true]) hds ht

/-- What is matched is selected, and a submission among those given with a
judging of its own among those given. -/
theorem mem_of_mem_matching {selection : Selection} {submissions : List Submission}
    {judgings : List Judging} {m : Submission × Judging}
    (h : m ∈ matching selection submissions judgings) :
    m.1 ∈ submissions ∧ m.2 ∈ judgings ∧ m.2.submissionId = m.1.id := by
  obtain ⟨r, hr, hm⟩ := List.mem_filterMap.mp (List.mem_filter.mp h).1
  obtain ⟨j, hj, rfl⟩ := Option.map_eq_some_iff.mp hm
  obtain ⟨hmem, hsub⟩ := List.mem_filter.mp (List.mem_of_getLast? hj)
  exact ⟨hr, hmem, of_decide_eq_true hsub⟩

/-- **The submissions that are matched** are those whose active judging is
selected. -/
theorem map_matching (selection : Selection) (submissions : List Submission)
    (judgings : List Judging) :
    (matching selection submissions judgings).map (fun m => m.1.id) =
      (submissions.filter fun r =>
        (activeOf judgings r.id).any (selection.selects r)).map Submission.id := by
  rw [matching]
  induction submissions with
  | nil => rfl
  | cons r rest ih =>
    rw [List.filterMap_cons, List.filter_cons]
    cases activeOf judgings r.id with
    | none => simpa using ih
    | some j =>
      simp only [Option.map_some, Option.any_some, List.filter_cons]
      split
      · rw [List.map_cons, List.map_cons, ih]
      · exact ih

/-- A submission is matched once. -/
theorem nodup_matching {selection : Selection} {submissions : List Submission}
    {judgings : List Judging} (h : (submissions.map Submission.id).Nodup) :
    ((matching selection submissions judgings).map fun m => m.1.id).Nodup := by
  rw [map_matching]
  exact h.sublist (List.filter_sublist.map _)

end Rejudge

end JudgeQueue
