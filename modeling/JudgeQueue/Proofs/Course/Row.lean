import JudgeQueue.Proofs.Sound.Keeps
import JudgeQueue.Proofs.Table.Grows
/-!
# The course of judgings — single rows

A judging is claimed once and ends once. How far it has come shows in its
fields, and it is what the events tell: nothing while it waits, its begin with
the judgehost that claimed it, and then its end. Whatever happens to a judging
leads it on this way, and the events that are published are the ones that its
story lacks.
-/

namespace JudgeQueue

namespace Judging

/-- The fields of a judging show how far it has come. One that waits has
nothing but what was chosen when it was queued. -/
structure Shaped (j : Judging) : Prop where
  waiting : j.lifecycle = .queued → j = (NewJudging.replacing j).queued j.id
  held : j.lifecycle = .claimed →
    j.server ≠ none ∧ j.startTime ≠ none ∧ j.stopTime = none ∧ j.verdict = none
  ended : j.lifecycle = .finalized →
    j.server ≠ none ∧ j.startTime ≠ none ∧ j.stopTime ≠ none ∧ j.verdict ≠ none

/-- The event that tells of the begin of a judging. -/
def begun (j : Judging) : Event :=
  .judgingBegun j.id j.submissionId (j.server.getD "")

/-- The events that tell of a judging as far as it has come. -/
def story (j : Judging) : List Event :=
  match j.lifecycle with
  | .queued => []
  | .claimed => [j.begun]
  | .finalized => [j.begun, j.finished]

/-- What may become of a judging: it stays the same attempt at the same
submission, never returns to the queue, keeps the judgehost that claimed it,
and once it has ended nothing but its flags changes. -/
structure Follows (j j' : Judging) : Prop where
  id : j'.id = j.id
  submissionId : j'.submissionId = j.submissionId
  fullTest : j'.fullTest = j.fullTest
  begun : j.lifecycle ≠ .queued →
    j'.lifecycle ≠ .queued ∧ j'.server = j.server ∧ j'.startTime = j.startTime
  ended : j.lifecycle = .finalized → j' = { j with active := j'.active, counted := j'.counted }

variable {j j' j₁ : Judging} {es : List Event} {now : Instant}

theorem Follows.refl (j : Judging) : j.Follows j :=
  ⟨rfl, rfl, rfl, fun hl => ⟨hl, rfl, rfl⟩, fun _ => rfl⟩

theorem Follows.trans (h : j.Follows j₁) (h' : j₁.Follows j') : j.Follows j' where
  id := h'.id.trans h.id
  submissionId := h'.submissionId.trans h.submissionId
  fullTest := h'.fullTest.trans h.fullTest
  begun hl := by
    obtain ⟨hl₁, hserver, hstart⟩ := h.begun hl
    obtain ⟨hl', hserver', hstart'⟩ := h'.begun hl₁
    exact ⟨hl', hserver'.trans hserver, hstart'.trans hstart⟩
  ended hl := by
    have hflags := h.ended hl
    have hl₁ : j₁.lifecycle = .finalized := by
      rw [hflags]
      exact hl
    rw [h'.ended hl₁, hflags]

instance : Lineage Follows where
  refl := Follows.refl
  trans := Follows.trans
  key_eq h := h.id.symm

/-- A judging that has its shape becomes another, and events tell of that. -/
structure Leads (j : Judging) (es : List Event) (j' : Judging) : Prop where
  follows : j.Follows j'
  shaped : j'.Shaped
  story : j'.story = j.story ++ es

/-! ## Stories -/

theorem story_of_queued (hl : j.lifecycle = .queued) : j.story = [] := by
  rw [story, hl]

theorem story_of_claimed (hl : j.lifecycle = .claimed) : j.story = [j.begun] := by
  rw [story, hl]

theorem story_of_finalized (hl : j.lifecycle = .finalized) : j.story = [j.begun, j.finished] := by
  rw [story, hl]

/-- A judging that is queued has its shape, and no story yet. -/
theorem shaped_queued (new : NewJudging) (id : Int) : (new.queued id).Shaped := by
  refine ⟨fun _ => rfl, fun hl => ?_, fun hl => ?_⟩ <;> cases hl

theorem story_queued (new : NewJudging) (id : Int) : (new.queued id).story = [] := rfl

/-! ## What happens to judgings -/

theorem leads_refl (h : j.Shaped) : j.Leads [] j :=
  ⟨.refl j, h, (List.append_nil _).symm⟩

/-- Its flags change, but one that waits is not counted. -/
theorem leads_flags (h : j.Shaped) {active counted : Bool}
    (hcounted : j.lifecycle = .queued → counted = false) :
    j.Leads [] { j with active, counted } where
  follows := ⟨rfl, rfl, rfl, fun hl => ⟨hl, rfl, rfl⟩, fun _ => rfl⟩
  shaped := by
    refine ⟨fun hl => ?_, h.held, h.ended⟩
    have hl : j.lifecycle = .queued := hl
    rw [hcounted hl, h.waiting hl]
    rfl
  story := (List.append_nil _).symm

/-- A judgehost claims it. -/
theorem leads_claimedBy (hl : j.lifecycle = .queued) (h : j.Shaped) (hostname : String)
    (now : Instant) :
    j.Leads [.judgingBegun j.id j.submissionId hostname] (j.claimedBy hostname now) where
  follows := by
    refine ⟨rfl, rfl, rfl, fun hne => absurd hl hne, fun hfin => ?_⟩
    rw [hl] at hfin
    cases hfin
  shaped := by
    have hstop : j.stopTime = none := by rw [h.waiting hl]; rfl
    have hverdict : j.verdict = none := by rw [h.waiting hl]; rfl
    refine ⟨fun hl => ?_, fun _ => ⟨?_, ?_, hstop, hverdict⟩, fun hl => ?_⟩
    · cases hl
    · exact Option.some_ne_none hostname
    · exact Option.some_ne_none now
    · cases hl
  story := by
    rw [story_of_queued hl]
    rfl

/-- One that waits has no judgehost to lose. -/
theorem unclaimed_eq (hl : j.lifecycle = .queued) (h : j.Shaped) : j.unclaimed = j := by
  have hserver : j.server = none := by rw [h.waiting hl]; rfl
  have hstart : j.startTime = none := by rw [h.waiting hl]; rfl
  rw [unclaimed, ← hserver, ← hstart]

section Claimed

variable (hl : j.lifecycle = .claimed) (h : j.Shaped)

include hl h

/-- Its judgehost gets on with it. -/
theorem leads_progress (compileOutput : Option String) (runVerdicts : String) :
    j.Leads [] { j with compileOutput, runVerdicts } where
  follows := by
    refine ⟨rfl, rfl, rfl, fun hne => ⟨hne, rfl, rfl⟩, fun hfin => ?_⟩
    rw [hl] at hfin
    cases hfin
  shaped := by
    refine ⟨fun hq => ?_, h.held, h.ended⟩
    have hq : j.lifecycle = .queued := hq
    rw [hl] at hq
    cases hq
  story := (List.append_nil _).symm

/-- It ends. -/
theorem leads_finished (hend : j'.lifecycle = .finalized) (hid : j'.id = j.id)
    (hsub : j'.submissionId = j.submissionId) (hfull : j'.fullTest = j.fullTest)
    (hserver : j'.server = j.server) (hstart : j'.startTime = j.startTime)
    (hstop : j'.stopTime ≠ none) (hverdict : j'.verdict ≠ none) : j.Leads [j.finished] j' where
  follows := by
    refine ⟨hid, hsub, hfull, fun _ => ⟨?_, hserver, hstart⟩, fun hfin => ?_⟩
    · rw [hend]
      decide
    · rw [hl] at hfin
      cases hfin
  shaped := by
    obtain ⟨hheld, hbegun, -, -⟩ := h.held hl
    refine ⟨fun hq => ?_, fun hc => ?_, fun _ => ⟨?_, ?_, hstop, hverdict⟩⟩
    · rw [hend] at hq
      cases hq
    · rw [hend] at hc
      cases hc
    · rwa [hserver]
    · rwa [hstart]
  story := by
    have hfinished : j'.finished = j.finished := by rw [finished, finished, hid, hsub]
    have hbegun : j'.begun = j.begun := by rw [begun, begun, hid, hsub, hserver]
    rw [story_of_finalized hend, story_of_claimed hl, hfinished, hbegun]
    rfl

theorem leads_compiled (success : Bool) (output : String) (now : Instant) :
    j.Leads (if success then [] else [j.finished])
      (Dispatch.compiled j success output now) := by
  cases success with
  | true => exact leads_progress hl h (some output) j.runVerdicts
  | false =>
    exact leads_finished hl h rfl rfl rfl rfl rfl rfl (Option.some_ne_none now)
      (Option.some_ne_none Verdict.compileError)

theorem leads_graded {runs : List Run} (hruns : ∀ n ∈ runs, n.verdict.isRunVerdict = true)
    (testcases : List Testcase) (fragment : String) (now : Instant) :
    j.Leads
      (if (Summary.ofRuns runs testcases).isComplete j.fullTest testcases.length
        then [j.finished] else [])
      (Grading.graded j runs testcases fragment now) := by
  unfold Grading.graded
  simp only
  split
  · next hcomplete =>
    obtain ⟨v, hv, -⟩ := Summary.exists_finalVerdict hcomplete hruns
    refine leads_finished hl h rfl rfl rfl rfl rfl rfl (Option.some_ne_none now) ?_
    change (Summary.ofRuns runs testcases).finalVerdict ≠ none
    rw [hv]
    exact Option.some_ne_none v
  · exact leads_progress hl h j.compileOutput _

/-- It is abandoned at this time. -/
theorem apply_abandon (now : Instant) :
    (JudgingPatch.abandon now).apply j =
      { j with
        active := false
        lifecycle := .finalized
        verdict := some .undefinedError
        rejudgingId := none
        previousJudgingId := none
        stopTime := some now } := by
  obtain ⟨-, -, hstop, -⟩ := h.held hl
  simp [JudgingPatch.apply, JudgingPatch.abandon, hstop]

theorem leads_abandon (now : Instant) :
    j.Leads [j.finished] ((JudgingPatch.abandon now).apply j) := by
  rw [apply_abandon hl h now]
  exact leads_finished hl h rfl rfl rfl rfl rfl rfl (Option.some_ne_none now)
    (Option.some_ne_none Verdict.undefinedError)

end Claimed

/-! ## Flags -/

theorem leads_retired (h : j.Shaped) : j.Leads [] j.retired :=
  leads_flags h fun _ => rfl

theorem leads_settled (h : j.Shaped) {id : Int}
    (hdone : j.rejudgingId = some id → j.lifecycle = .finalized) : j.Leads [] (j.settled id) := by
  refine leads_flags h fun hl => decide_eq_false fun hid => ?_
  have hfin := hdone hid
  rw [hl] at hfin
  cases hfin

/-- One that waits is not counted. -/
theorem Shaped.counted_of_queued (h : j.Shaped) (hl : j.lifecycle = .queued) :
    j.counted = false := by
  rw [h.waiting hl]
  rfl

theorem leads_flagged (h : j.Shaped) : j.Leads [] j.flagged := by
  refine leads_flags h fun hl => ?_
  simp [h.counted_of_queued hl, isFinalized, hl]

theorem leads_reflagged (h : j.Shaped) : j.Leads [] j.reflagged := by
  refine leads_flags h fun hl => ?_
  simp [h.counted_of_queued hl, isFinalized, hl]

end Judging

end JudgeQueue
