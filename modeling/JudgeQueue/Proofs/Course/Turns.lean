import JudgeQueue.Proofs.Course.Change
import JudgeQueue.Proofs.Graded.Keeps
/-!
# The course of the store — the turns of a judging

A judging takes turns: its flags change, a judgehost claims it, reports that
it compiles or what its runs came to, or it is abandoned. A change gives a turn
to each judging that it leaves, queues one judging at most, and takes away no
judging but a candidate of an open rejudging. What every turn keeps, every
change keeps, so an invariant of the rows is proved turn by turn.
-/

namespace JudgeQueue

/-- One turn of a judging among some judgehosts, at an instant. -/
inductive Judging.Turns (hosts : Table Judgehost) (now : Instant) (j : Judging) : Judging → Prop
  | flagged (active counted : Bool) : Turns hosts now j { j with active, counted }
  | claimed {hostname : String} (hl : j.lifecycle = .queued)
      (hhost : hosts.contains hostname = true) : Turns hosts now j (j.claimedBy hostname now)
  | compiled (hl : j.lifecycle = .claimed) (success : Bool) (output : String) :
      Turns hosts now j (Dispatch.compiled j success output now)
  | graded (hl : j.lifecycle = .claimed) {runs : List Run}
      (hruns : ∀ n ∈ runs, n.verdict.isRunVerdict = true) (testcases : List Testcase)
      (text : String) : Turns hosts now j (Grading.graded j runs testcases text now)
  | abandoned (hl : j.lifecycle = .claimed) :
      Turns hosts now j ((JudgingPatch.abandon now).apply j)

namespace Judging.Turns

variable {hosts : Table Judgehost} {now : Instant} {j j' : Judging}

theorem refl (hosts : Table Judgehost) (now : Instant) (j : Judging) : j.Turns hosts now j :=
  .flagged j.active j.counted

theorem id (h : j.Turns hosts now j') : j'.id = j.id := by
  cases h with
  | flagged | claimed | abandoned => rfl
  | compiled _ success => cases success <;> rfl
  | graded _ _ testcases text => exact (Store.graded_eq j _ testcases text now).1

theorem submissionId (h : j.Turns hosts now j') : j'.submissionId = j.submissionId := by
  cases h with
  | flagged | claimed | abandoned => rfl
  | compiled _ success => cases success <;> rfl
  | graded _ _ testcases text => exact (Store.graded_eq j _ testcases text now).2.1

end Judging.Turns

namespace Store

/-- What is queued stands in for nothing, for what a judging of its submission
stands in for, or for the active judging itself. -/
def Joins (s : Store) (new : NewJudging) : Prop :=
  ∀ id, new.previousJudgingId = some id → ∃ j ∈ s.judgings, j.submissionId = new.submissionId ∧
    (j.previousJudgingId = some id ∨ j.id = id ∧ j.active = true)

/-- A run is recorded at an instant, under a judging that is held. -/
def Records (s : Store) (now : Instant) (n : Run) : Prop :=
  n.completeTime = now ∧ ∃ j ∈ s.judgings, j.id = n.judgingId ∧ j.lifecycle = .claimed

/-- At an instant every judging takes a turn, or it is queued, or it goes with
its rejudging. Judgehosts stay known, rejudgings are opened under fresh ids,
and runs come only under judgings that are held. -/
structure Turns (s : Store) (now : Instant) (s' : Store) : Prop where
  rows : ∀ j' ∈ s'.judgings, (∃ j ∈ s.judgings, j.Turns s.judgehosts now j') ∨
    ∃ new, s.Joins new ∧ j' = new.queued (s.lastJudging + 1)
  kept : ∀ j ∈ s.judgings, (∃ j' ∈ s'.judgings, j'.id = j.id) ∨
    ∃ q ∈ s.rejudgings, q.applied = none ∧ j.rejudgingId = some q.id
  lastJudging : s.lastJudging ≤ s'.lastJudging
  rejudgings : ∀ q' ∈ s'.rejudgings, q'.applied = none →
    (∃ q ∈ s.rejudgings, q.id = q'.id ∧ q.applied = none) ∨ s.lastRejudging < q'.id
  judgehosts : ∀ hostname, s.judgehosts.contains hostname = true →
    s'.judgehosts.contains hostname = true
  runs : ∀ n ∈ s'.runs, n ∈ s.runs ∨ s.Records now n

variable {now : Instant} {s s' : Store} {es : List Event}

/-! ## Which changes are turns -/

namespace Turns

/-- A change of some judgings, row by row. -/
theorem of_update {p : Judging → Bool} {f : Judging → Judging} (hf : ∀ j, key (f j) = key j)
    (hjud : s'.judgings = s.judgings.update p f hf) (hlast : s'.lastJudging = s.lastJudging)
    (hhosts : s'.judgehosts = s.judgehosts) (hrej : ∀ q' ∈ s'.rejudgings, q'.applied = none →
      q' ∈ s.rejudgings) (hruns : ∀ n ∈ s'.runs, n ∈ s.runs ∨ s.Records now n)
    (h : ∀ j ∈ s.judgings, p j = true → j.Turns s.judgehosts now (f j)) : s.Turns now s' := by
  have hrow : ∀ j ∈ s.judgings, j.Turns s.judgehosts now (if p j then f j else j) := by
    intro j hj
    split
    · next hp => exact h j hj hp
    · exact .refl _ _ j
  refine ⟨fun j' hj' => .inl ?_, fun j hj => .inl ?_, Int.le_of_eq hlast.symm,
    fun q hq hopen => .inl ⟨q, hrej q hq hopen, rfl, hopen⟩, fun hostname hknown => ?_, hruns⟩
  · rw [hjud, Table.mem_update] at hj'
    obtain ⟨j, hj, rfl⟩ := hj'
    exact ⟨j, hj, hrow j hj⟩
  · refine ⟨if p j then f j else j, ?_, (hrow j hj).id⟩
    rw [hjud, Table.mem_update]
    exact ⟨j, hj, rfl⟩
  · rwa [hhosts]

/-- A change of one judging. -/
theorem of_modify {j : Judging} {f : Judging → Judging} (hf : ∀ j, key (f j) = key j)
    (hjud : s'.judgings = s.judgings.modify j.id f hf) (hlast : s'.lastJudging = s.lastJudging)
    (hhosts : s'.judgehosts = s.judgehosts) (hrej : s'.rejudgings = s.rejudgings)
    (hruns : ∀ n ∈ s'.runs, n ∈ s.runs ∨ s.Records now n) (hj : j ∈ s.judgings)
    (h : j.Turns s.judgehosts now (f j)) : s.Turns now s' := by
  refine of_update hf hjud hlast hhosts (fun q hq _ => hrej ▸ hq) hruns fun i hi hid => ?_
  rw [judging_eq hi hj (of_decide_eq_true hid)]
  exact h

/-- A change beside the judgings. -/
theorem of_eq (hjud : s'.judgings = s.judgings) (hlast : s'.lastJudging = s.lastJudging)
    (hrej : s'.rejudgings = s.rejudgings)
    (hhosts : ∀ hostname, s.judgehosts.contains hostname = true →
      s'.judgehosts.contains hostname = true)
    (hruns : ∀ n ∈ s'.runs, n ∈ s.runs) : s.Turns now s' where
  rows j hj := .inl ⟨j, hjud ▸ hj, .refl _ _ j⟩
  kept j hj := .inl ⟨j, hjud ▸ hj, rfl⟩
  lastJudging := Int.le_of_eq hlast.symm
  rejudgings q hq hopen := .inl ⟨q, hrej ▸ hq, rfl, hopen⟩
  judgehosts := hhosts
  runs n hn := .inl (hruns n hn)

end Turns

/-- A judging is queued, and each other takes a turn. -/
theorem Queues.turns {new : NewJudging} {f : Judging → Judging}
    (h : s.Queues s' (new.queued (s.lastJudging + 1)) f) (hnew : s.Joins new)
    (hhosts : s'.judgehosts = s.judgehosts)
    (hf : ∀ a ∈ s.judgings, a.Turns s.judgehosts now (f a)) : s.Turns now s' where
  rows b hb := by
    rcases (h.mem_iff b).mp hb with rfl | ⟨a, ha, rfl⟩
    · exact .inr ⟨new, hnew, rfl⟩
    · exact .inl ⟨a, ha, hf a ha⟩
  kept a ha := .inl ⟨f a, h.mem_old ha, h.id_eq a⟩
  lastJudging := by
    rw [h.lastJudging]
    omega
  rejudgings q hq hopen := .inl ⟨q, h.rejudgings ▸ hq, rfl, hopen⟩
  judgehosts hostname hknown := hhosts ▸ hknown
  runs n hn := .inl (h.runs ▸ hn)

theorem Sound.turns_rejudge (h : s.Sound) {r : Submission} (hr : r ∈ s.submissions)
    (fullTest : Bool) (now : Instant) : s.Turns now (s.rejudge r.id fullTest) := by
  refine (queues_rejudge h.numbered hr fullTest).turns (fun id hid => ?_) rfl fun a _ => ?_
  · obtain ⟨j, hj, rfl⟩ := Option.map_eq_some_iff.mp hid
    obtain ⟨hmem, hsub, hact⟩ := mem_of_activeOf hj
    exact ⟨j, hmem, hsub, .inr ⟨rfl, hact⟩⟩
  · split
    · exact .flagged false false
    · exact .refl _ _ a

theorem turns_cancel {q : Rejudging} (hq : q ∈ s.rejudgings) (hopen : q.applied = none)
    (now : Instant) (operator : Option Int) :
    s.Turns now (s.cancelRejudging q.id now operator) where
  rows b hb := by
    rcases mem_judgings_cancelRejudging.mp hb with ⟨a, ha, -, hl, rfl⟩ | ⟨hb, -⟩
    · exact .inl ⟨a, ha, .abandoned hl⟩
    · exact .inl ⟨b, hb, .refl _ _ b⟩
  kept j hj := by
    by_cases hid : j.rejudgingId = some q.id
    · exact .inr ⟨q, hq, hopen, hid⟩
    · exact .inl ⟨j, mem_judgings_cancelRejudging.mpr (.inr ⟨hj, fun hid' => absurd hid' hid⟩), rfl⟩
  lastJudging := Int.le_refl _
  rejudgings p hp hp' := .inl ⟨p, (mem_of_mem_decided hp hp').1, rfl, hp'⟩
  judgehosts _ hknown := hknown
  runs n hn := .inl (Table.mem_keep.mp hn).1

/-- A judging is graded. -/
theorem OnCourse.turns_grade (h : s.OnCourse) {j : Judging} (hj : j ∈ s.judgings)
    (hl : j.lifecycle = .claimed) {reports : List RunReport}
    (hverdict : ∀ p ∈ reports, p.verdict.isRunVerdict = true) (problemId : Int) (now : Instant) :
    s.Turns now (s.grade j.id problemId reports now) := by
  have hgraded : ∀ n ∈ (s.recordRuns j.id now reports).runsOf j.id,
      n.verdict.isRunVerdict = true :=
    fun n hn => runsGraded_recordRuns hverdict h.sound.runs j.id now n (mem_runsOf.mp hn).1
  have hturn : j.Turns s.judgehosts now _ :=
    .graded hl hgraded (s.testcasesOf problemId) (Grading.fragment reports)
  have hruns : ∀ n ∈ (s.recordRuns j.id now reports).runs, n ∈ s.runs ∨ s.Records now n := by
    intro n hn
    rcases mem_runs_recordRuns hn with hn | ⟨-, hid, htime⟩
    · exact .inl hn
    · exact .inr ⟨htime, j, hj, hid.symm, hl⟩
  rw [Grading.grade_eq]
  obtain ⟨runs, hrecorded⟩ := s.exists_recordRuns j.id now reports
  rw [hrecorded] at hturn hruns ⊢
  exact .of_modify (Grading.key_graded · _ _ _ now) rfl rfl rfl rfl hruns hj hturn

/-- A rejudging is opened. -/
theorem Sound.turns_openRejudging (h : s.Sound) (new : NewRejudging) (now : Instant) :
    s.Turns now (s.insertRejudging new now).2 where
  rows j hj := .inl ⟨j, hj, .refl _ _ j⟩
  kept j hj := .inl ⟨j, hj, rfl⟩
  lastJudging := Int.le_refl _
  rejudgings q hq hopen := by
    rcases (mem_rejudgings_insertRejudging h.numbered).mp hq with rfl | hq
    · refine .inr ?_
      change s.lastRejudging < s.lastRejudging + 1
      omega
    · exact .inl ⟨q, hq, rfl, hopen⟩
  judgehosts _ hknown := hknown
  runs n hn := .inl hn

/-- A rejudging is applied. -/
theorem turns_apply (q : Rejudging) (now : Instant) (operator : Option Int) :
    s.Turns now (s.applyRejudging q.id now operator) :=
  .of_update (Judging.key_settled q.id) rfl rfl rfl
    (fun _ hp hopen => (mem_of_mem_decided hp hopen).1) (fun _ => .inl) fun _ _ _ => .flagged _ _

/-! ## All changes -/

section Keeps

variable {P : Store → Prop}
variable (hP : ∀ {s s' : Store}, s.OnCourse → s.Graded → s'.OnCourse → s.Turns now s' →
  P s → P s')

include hP

/-- Submissions that are rejudged one after another give turns one after
another. -/
theorem OnCourse.keeps_rejudged {ds : List StatisticsDelta} (h : s.OnCourse) (hg : s.Graded)
    (hr : Rejudged s ds s') (hs : P s) : P s' := by
  induction hr with
  | none => exact hs
  | @next s _ r _ _ fullTest hr _ hfull _ _ ih =>
    have hstep : (s.rejudge r.id fullTest).OnCourse :=
      (h.unfolds_rejudge r.id fullTest).onCourse h (h.sound.rejudge hr fullTest)
    exact ih hstep (hg.keeps (keepsGrades_rejudge h.sound.numbered hr hfull))
      (hP h hg hstep (h.sound.turns_rejudge hr fullTest now) hs)

/-- **What every turn keeps, every change keeps.** -/
theorem OnCourse.keeps_change (h : s.OnCourse) (hg : s.Graded) (hc : Change now s es s')
    (hs : P s) : P s' := by
  have hs' := h.change hc
  cases hc with
  | addJudgehost hnew =>
    refine hP h hg hs' (.of_eq rfl rfl rfl (fun hostname hknown => ?_) fun _ => id) hs
    rw [Table.contains, Table.find?_insert]
    split
    · rfl
    · exact hknown
  | touchJudgehost =>
    refine hP h hg hs' (.of_eq rfl rfl rfl (fun hostname hknown => ?_) fun _ => id) hs
    rwa [touchJudgehost, Table.contains_modify]
  | switchJudgehost =>
    refine hP h hg hs' (.of_eq rfl rfl rfl (fun hostname hknown => ?_) fun _ => id) hs
    rwa [setJudgehostActive, Table.contains_modify]
  | removeTestcase =>
    exact hP h hg hs' (.of_eq rfl rfl rfl (fun _ => id) fun n hn => (Table.mem_keep.mp hn).1) hs
  | switchProblem | switchLanguage | raise | close =>
    exact hP h hg hs' (.of_eq rfl rfl rfl (fun _ => id) fun _ => id) hs
  | enqueue hr hidle =>
    refine hP h hg hs' ((queues_queue h.sound.numbered ⟨_, hr, rfl⟩).turns (fun id hid => ?_) rfl
      fun a _ => .refl _ _ a) hs
    cases hid
  | @claim j hostname hhost hj =>
    obtain ⟨hmem, hl⟩ := mem_of_nextDispatchable hj
    refine hP h hg hs' (.of_modify (Judging.key_claimedBy · hostname now) rfl rfl rfl rfl
      (fun _ => .inl) hmem (.claimed hl ?_)) hs
    rw [Table.contains]
    exact Option.isSome_of_any hhost
  | @putBack j hj =>
    obtain ⟨hmem, hl⟩ := mem_of_nextDispatchable hj
    refine hP h hg hs' (.of_modify Judging.key_unclaimed rfl rfl rfl rfl (fun _ => .inl) hmem ?_) hs
    rw [Judging.unclaimed_eq hl (h.shaped j hmem)]
    exact .refl _ _ j
  | compile hj hheld success output =>
    exact hP h hg hs' (.of_modify (Dispatch.key_compiled · success output now) rfl rfl rfl rfl
      (fun _ => .inl) hj (.compiled (Judging.lifecycle_of_isClaimedBy hheld) success output)) hs
  | grade hj hheld _ _ hverdict _ _ _ =>
    exact hP h hg hs' (h.turns_grade hj (Judging.lifecycle_of_isClaimedBy hheld) hverdict _ now) hs
  | requeue hj hheld _ =>
    have hl := Judging.isClaimed_iff.mp hheld
    refine hP h hg hs' ((queues_replace h.sound.numbered hj now).turns (fun id hid => ?_) rfl
      fun a ha => ?_) hs
    · exact ⟨_, hj, rfl, .inl hid⟩
    · split
      · next hid =>
        rw [judging_eq ha hj hid]
        exact .abandoned hl
      · exact .refl _ _ a
  | rejudge hr _ =>
    -- the statistics are merged into the store that the new judgings have joined
    have hmid := (h.unfolds_rejudged hr).onCourse h (h.sound.rejudged hr)
    exact hP hmid (h.sound.graded_rejudged hg hr) hs'
      (.of_eq rfl rfl rfl (fun _ => id) fun _ => id) (h.keeps_rejudged hP hg hr hs)
  | openRejudging new => exact hP h hg hs' (h.sound.turns_openRejudging new now) hs
  | @propose q r j hq hopen hr hfree hcontest hj hsub hactive fullTest =>
    refine hP h hg hs' ((h.sound.queues_propose hr hsub fullTest).turns (fun id hid => ?_) rfl
      fun a _ => .refl _ _ a) hs
    exact ⟨j, hj, rfl, .inr ⟨Option.some.inj hid, hactive⟩⟩
  | apply hq hopen hdone operator _ =>
    have hmid := (h.unfolds_apply hq hopen
      (fun j hj hid => Judging.isFinalized_iff.mp (hdone j hj hid)) now operator).onCourse h
      (h.sound.apply hq hopen
        (fun j hj hid => Judging.isFinalized_iff.mp (hdone j hj hid)) now operator)
    exact hP hmid (hg.keeps (keepsGrades_applyRejudging _ now operator)) hs'
      (.of_eq rfl rfl rfl (fun _ => id) fun _ => id) (hP h hg hmid (turns_apply _ now operator) hs)
  | cancel hq hopen operator => exact hP h hg hs' (turns_cancel hq hopen now operator) hs
  | count id _ =>
    exact hP h hg hs' (.of_update Judging.key_flagged rfl rfl rfl (fun _ hq _ => hq)
      (fun _ => .inl) fun j _ _ => .flagged j.active _) hs
  | rebuild contestId =>
    exact hP h hg hs' (.of_update Judging.key_reflagged rfl rfl rfl (fun _ hq _ => hq)
      (fun _ => .inl) fun j _ _ => .flagged j.active _) hs

/-- **What every turn keeps, every trace keeps.** -/
theorem OnCourse.keeps_trace (h : s.OnCourse) (hg : s.Graded) (ht : Trace now s es s')
    (hs : P s) : P s' := by
  induction ht with
  | refl => exact hs
  | step hc _ ih =>
    exact ih (h.change hc) (h.sound.graded_change hg hc) (h.keeps_change hP hg hc hs)

end Keeps

end Store

end JudgeQueue
