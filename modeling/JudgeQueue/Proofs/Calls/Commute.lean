import JudgeQueue.Proofs.Calls.Beside
/-!
# Calls of judgehosts — rulings commute

Two rulings of two judgehosts meet in the sequence that numbers the runs and
nowhere else. In whichever order they are applied, each judging has the same runs
in the same order, under other ids.
-/

namespace JudgeQueue

/-! ## Stores that differ in the ids of runs -/

namespace Store

/-- The same rows of everything but the runs, and for each judging the same runs
in the same order, under ids of their own. -/
structure SameButRunIds (s t : Store) : Prop where
  rest : { s with runs := t.runs } = t
  runs : ∀ id, (s.runsOf id).map Run.unrecorded = (t.runsOf id).map Run.unrecorded

variable {s t : Store} {id : Int} {now : Instant}

@[refl] theorem SameButRunIds.refl (s : Store) : s.SameButRunIds s :=
  ⟨rfl, fun _ => rfl⟩

/-- A change that does not look at the runs keeps the likeness. -/
theorem SameButRunIds.map (h : s.SameButRunIds t) (F : Store → Store)
    (hF : ∀ u runs, F { u with runs := runs } = { F u with runs := runs }) :
    (F s).SameButRunIds (F t) := by
  have hrest : { F s with runs := t.runs } = F t := by rw [← hF, h.rest]
  have hruns (u : Store) : (F u).runs = u.runs := by
    have hsame := congrArg Store.runs (hF u u.runs)
    exact hsame
  refine ⟨?_, fun id => ?_⟩
  · rw [hruns t, hrest]
  · rw [runsOf, runsOf, hruns, hruns]
    exact h.runs id

/-- No run is recorded past the sequence. -/
theorem run_le_recordRuns (hle : ∀ n ∈ s.runs, n.id ≤ s.lastRun) (id : Int) (now : Instant)
    (reports : List RunReport) :
    ∀ n ∈ (s.recordRuns id now reports).runs, n.id ≤ (s.recordRuns id now reports).lastRun := by
  induction reports generalizing s with
  | nil => exact hle
  | cons r rest ih => exact ih (run_le_insertRun hle _)

/-- **Runs of two judgings** are recorded in either order, under other ids. -/
theorem sameButRunIds_recordRuns {id₁ id₂ : Int} (hne : id₁ ≠ id₂)
    (hle : ∀ n ∈ s.runs, n.id ≤ s.lastRun) (n₁ n₂ : Instant) (rs₁ rs₂ : List RunReport) :
    ((s.recordRuns id₁ n₁ rs₁).recordRuns id₂ n₂ rs₂).SameButRunIds
      ((s.recordRuns id₂ n₂ rs₂).recordRuns id₁ n₁ rs₁) := by
  refine ⟨?_, fun id => ?_⟩
  · obtain ⟨a, ha⟩ := exists_recordRuns s id₁ n₁ rs₁
    obtain ⟨b, hb⟩ := exists_recordRuns s id₂ n₂ rs₂
    obtain ⟨c, hc⟩ := exists_recordRuns (s.recordRuns id₁ n₁ rs₁) id₂ n₂ rs₂
    obtain ⟨d, hd⟩ := exists_recordRuns (s.recordRuns id₂ n₂ rs₂) id₁ n₁ rs₁
    rw [hc, hd, ha, hb]
    simp only [Int.add_right_comm]
  · rw [unrecorded_recordRuns (run_le_recordRuns hle id₁ n₁ rs₁), unrecorded_recordRuns hle,
      unrecorded_recordRuns (run_le_recordRuns hle id₂ n₂ rs₂), unrecorded_recordRuns hle,
      List.append_assoc, List.append_assoc]
    by_cases h : id₁ = id
    · have hother : id₂ ≠ id := fun heq => hne (h.trans heq.symm)
      rw [if_neg hother, List.append_nil, List.nil_append]
    · rw [if_neg h, List.append_nil, List.nil_append]

end Store

/-! ## Two rulings -/

/-- The row of a judging is written on behalf of a judgehost. -/
def Store.writtenBy (s : Store) (host : String) (now : Instant) (j : Judging) : Store :=
  { s.touchJudgehost host now with judgings := s.judgings.insert j }

/-- Rows of different judgings are written on behalf of different judgehosts in any
order. -/
theorem Store.writtenBy_comm {host₁ host₂ : String} {j₁ j₂ : Judging} (hne : host₁ ≠ host₂)
    (hid : j₁.id ≠ j₂.id) (s : Store) (n₁ n₂ : Instant) :
    (s.writtenBy host₁ n₁ j₁).writtenBy host₂ n₂ j₂ =
      (s.writtenBy host₂ n₂ j₂).writtenBy host₁ n₁ j₁ := by
  change { (s.touchJudgehost host₁ n₁).touchJudgehost host₂ n₂ with
    judgings := (s.judgings.insert j₁).insert j₂ } =
    { (s.touchJudgehost host₂ n₂).touchJudgehost host₁ n₁ with
      judgings := (s.judgings.insert j₂).insert j₁ }
  rw [touchJudgehost_comm hne, Table.insert_comm hid]

namespace Ruling

variable {r₁ r₂ : Ruling} {host₁ host₂ : String} {n₁ n₂ : Instant} {s : Store}

/-- The runs are recorded first, and then the row is written. -/
theorem apply_heard_some (j : Judging) (recorded : List RunReport) (host : String) (now : Instant)
    (s : Store) :
    (heard (some j) recorded).apply host now s =
      (s.recordRuns j.id now recorded).writtenBy host now j := by
  have htouch := Store.recordRuns_comm (F := (·.touchJudgehost host now)) (fun _ _ => rfl) s j.id
    now recorded
  have hjud : (s.recordRuns j.id now recorded).judgings = s.judgings :=
    Store.recordRuns_congr Store.judgings fun _ _ => rfl
  rw [apply, htouch, Store.writtenBy, hjud]

/-- **Rulings of two judgehosts write different judgings.** -/
theorem IsAbout.ne_of_ne {j₁ j₂ : Judging} {rs₁ rs₂ : List RunReport} (hne : host₁ ≠ host₂)
    (h₁ : (heard (some j₁) rs₁).IsAbout s host₁) (h₂ : (heard (some j₂) rs₂).IsAbout s host₂) :
    j₁.id ≠ j₂.id := by
  obtain ⟨-, i₁, hi₁, hid₁⟩ := h₁ j₁ rs₁ rfl
  obtain ⟨-, i₂, hi₂, hid₂⟩ := h₂ j₂ rs₂ rfl
  obtain ⟨hmem₁, hheld₁⟩ := Store.mem_workOf.mp hi₁
  obtain ⟨hmem₂, hheld₂⟩ := Store.mem_workOf.mp hi₂
  intro hid
  have hsame : i₁ = i₂ := Store.judging_eq hmem₁ hmem₂ (by rw [hid₁, hid, hid₂])
  rw [← hsame, Judging.isClaimedBy_of_ne hheld₁ hne] at hheld₂
  cases hheld₂

/-- A ruling that writes no judging may be applied before another one or after
it. -/
theorem apply_comm_of_silent (hne : host₁ ≠ host₂) (h : ∀ j rs, r₂ ≠ heard (some j) rs)
    (r₁ : Ruling) (n₁ n₂ : Instant) (s : Store) :
    r₁.apply host₁ n₁ (r₂.apply host₂ n₂ s) = r₂.apply host₂ n₂ (r₁.apply host₁ n₁ s) := by
  rcases r₂ with e | ⟨_ | j, rs⟩
  · rfl
  · exact (beside_touchJudgehost hne n₁ n₂).apply_comm s
  · exact absurd rfl (h j rs)

/-- **Rulings of two judgehosts commute** but for the ids of the new runs. -/
theorem IsAbout.sameButRunIds (h₁ : r₁.IsAbout s host₁) (h₂ : r₂.IsAbout s host₂)
    (hne : host₁ ≠ host₂) (hle : ∀ n ∈ s.runs, n.id ≤ s.lastRun) (n₁ n₂ : Instant) :
    (r₂.apply host₂ n₂ (r₁.apply host₁ n₁ s)).SameButRunIds
      (r₁.apply host₁ n₁ (r₂.apply host₂ n₂ s)) := by
  by_cases hsilent₂ : ∀ j rs, r₂ ≠ heard (some j) rs
  · rw [apply_comm_of_silent hne hsilent₂]
  by_cases hsilent₁ : ∀ j rs, r₁ ≠ heard (some j) rs
  · rw [apply_comm_of_silent hne.symm hsilent₁]
  push Not at hsilent₁ hsilent₂
  obtain ⟨j₁, rs₁, rfl⟩ := hsilent₁
  obtain ⟨j₂, rs₂, rfl⟩ := hsilent₂
  have hid := h₁.ne_of_ne hne h₂
  -- runs are recorded before the rows are written, and rows in any order
  have hrecord (t : Store) (host : String) (now : Instant) (j : Judging) (id : Int) (n : Instant)
      (rs : List RunReport) :
      (t.writtenBy host now j).recordRuns id n rs = (t.recordRuns id n rs).writtenBy host now j :=
    Store.recordRuns_comm (F := (·.writtenBy host now j)) (fun _ _ => rfl) t id n rs
  have hrows (t : Store) := Store.writtenBy_comm hne hid t n₁ n₂
  simp only [apply_heard_some, hrecord, hrows]
  exact (Store.sameButRunIds_recordRuns hid hle n₁ n₂ rs₁ rs₂).map
    (fun t => (t.writtenBy host₂ n₂ j₂).writtenBy host₁ n₁ j₁) fun _ _ => rfl

end Ruling

end JudgeQueue
