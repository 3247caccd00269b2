import JudgeQueue.Proofs.Grading.Run
import JudgeQueue.Proofs.Output.Batch
import JudgeQueue.Proofs.Trace.Effects
/-!
# Output of runs — the report

A judgehost reports runs in batches. Before and after its runs are recorded, a
request looks rows up and grades the judging, which touches neither runs nor
blobs. So the batch is recorded if the request is answered, and if it fails, no
more is left of it than output that was put on the way.
-/

namespace JudgeQueue

open Transaction

namespace Grading

variable {judgingId : Int} {reports : List RunReport} {es : Entries BlobKey Bytes}
variable {s : Store} {w w' w₁ : World}

/-- A batch of which nothing is recorded. -/
theorem recorded_of_keepsRuns (hw : w'.blobs = .memory es) (hkeeps : s.KeepsRuns w'.store) :
    Recorded judgingId reports s es w' :=
  ⟨es, hw, .refl, Int.le_of_eq hkeeps.lastRun.symm, fun _ => .inl rfl,
    fun n hn => .inl (hkeeps.runs n hn)⟩

/-- What keeps the runs may come before a batch. -/
theorem Spilled.after (h : Spilled judgingId reports w₁.store es w')
    (hkeeps : s.KeepsRuns w₁.store) : Spilled judgingId reports s es w' := by
  obtain ⟨es', hblobs, hspill⟩ := h
  rw [hkeeps.lastRun] at hspill
  exact ⟨es', hblobs, hspill⟩

theorem Recorded.after (h : Recorded judgingId reports w₁.store es w')
    (hkeeps : s.KeepsRuns w₁.store) : Recorded judgingId reports s es w' := by
  obtain ⟨es', hblobs, hspill, hle, hput, hruns⟩ := h
  rw [hkeeps.lastRun] at hspill hle hput hruns
  exact ⟨es', hblobs, hspill, hle, hput, fun n hn => (hruns n hn).imp_left (hkeeps.runs n)⟩

/-- It may come after one too. -/
theorem Recorded.before (h : Recorded judgingId reports s es w₁) (hblobs : w'.blobs = w₁.blobs)
    (hkeeps : w₁.store.KeepsRuns w'.store) : Recorded judgingId reports s es w' := by
  obtain ⟨es', hblobs₁, hspill, hle, hput, hruns⟩ := h
  rw [← hkeeps.lastRun] at hle hput hruns
  exact ⟨es', hblobs.trans hblobs₁, hspill, hle, hput, fun n hn => hruns n (hkeeps.runs n hn)⟩

/-- The end of a batch is committed, and keeps the runs. -/
theorem leaves_conclude (j : Judging) (runs : List Run) (testcases : List Testcase) (text : String)
    (now : Instant) :
    (conclude j runs testcases text now).Leaves w
      (fun ending w' => (∃ a es, ending = .commit a es) ∧ w'.blobs = w.blobs ∧
        w.store.KeepsRuns w'.store)
      fun w' => w'.blobs = w.blobs ∧ w.store.KeepsRuns w'.store := by
  have hsame : w.blobs = w.blobs ∧ w.store.KeepsRuns w.store := ⟨rfl, .refl _⟩
  unfold conclude
  simp only
  split
  · exact (asks_ask rfl).leaves_bind (fun _ w₁ hb hk => ⟨⟨_, _, rfl⟩, hb, hk⟩)
      fun w₁ hb hk => ⟨hb, hk⟩
  · split
    · exact ⟨⟨_, _, rfl⟩, hsame⟩
    · exact (asks_ask rfl).leaves_bind (fun _ w₁ hb hk => ⟨⟨_, _, rfl⟩, hb, hk⟩)
        fun w₁ hb hk => ⟨hb, hk⟩

variable {j : Judging}

/-- **A batch of the judging that is held** is recorded, or else spills some of
its output. -/
theorem leaves_recordBatch (hw : w.blobs = .memory es) (reports : List RunReport) (now : Instant) :
    (recordBatch j reports now).Leaves w
      (fun ending w' => (∃ a es, ending = .commit a es) ∧ Recorded j.id reports w.store es w')
      (Spilled j.id reports w.store es) := by
  have hspilled : ∀ w₁ : World, w₁.blobs = .memory es → Spilled j.id reports w.store es w₁ :=
    fun _ hb => ⟨es, hb, .refl⟩
  -- three lookups come first
  refine (asks_loadSubmission _).leaves_bind (fun submission w₁ hb₁ hk₁ => ?_)
    fun w₁ hb₁ _ => hspilled w₁ (hb₁.trans hw)
  refine (asks_ask rfl).leaves_bind (fun testcases w₂ hb₂ hk₂ => ?_)
    fun w₂ hb₂ _ => hspilled w₂ (hb₂.trans (hb₁.trans hw))
  refine (asks_ask rfl).leaves_bind (fun earlier w₃ hb₃ hk₃ => ?_)
    fun w₃ hb₃ _ => hspilled w₃ (hb₃.trans (hb₂.trans (hb₁.trans hw)))
  have hw₃ : w₃.blobs = .memory es := hb₃.trans (hb₂.trans (hb₁.trans hw))
  have hkeeps : w.store.KeepsRuns w₃.store := hk₁.trans (hk₂.trans hk₃)
  refine leaves_bind.mpr ((leaves_recordRuns hw₃ submission.problemId testcases now
    (earlier.map Run.testcaseId) reports).mono ?_ fun _ hspill => hspill.after hkeeps)
  -- the runs are recorded, and the rest keeps them
  rintro text w₄ ⟨hrecorded, -⟩
  have hrest : ∀ w' : World, w'.blobs = w₄.blobs → w₄.store.KeepsRuns w'.store →
      Recorded j.id reports w.store es w' := fun w' hb hk =>
    (hrecorded.before hb hk).after hkeeps
  refine (asks_ask rfl).leaves_bind (fun runs w₅ hb₅ hk₅ => ?_)
    fun w₅ hb₅ hk₅ => (hrest w₅ hb₅ hk₅).spilled
  refine (leaves_conclude j runs testcases text now).mono ?_ ?_
  · rintro ending w' ⟨hcommit, hb, hk⟩
    exact ⟨hcommit, hrest w' (hb.trans hb₅) (hk₅.trans hk)⟩
  · rintro w' ⟨hb, hk⟩
    exact (hrest w' (hb.trans hb₅) (hk₅.trans hk)).spilled

/-- **A report of runs** is recorded as far as it is new, or else spills some of
its output. -/
theorem leaves_reportRuns (hw : w.blobs = .memory es) (hostname : String) (judgingId : Int)
    (reports : List RunReport) (now : Instant) :
    (reportRuns hostname judgingId reports now).Leaves w
      (fun ending w' => (∃ a es, ending = .commit a es) ∧
        Recorded judgingId reports w.store es w')
      (Spilled judgingId reports w.store es) := by
  unfold reportRuns
  split
  · exact ⟨es, hw, .refl⟩
  · refine (asks_heartbeat hostname now).leaves_bind (fun active w₁ hb hk => ?_)
      fun w₁ hb _ => ⟨es, hb.trans hw, .refl⟩
    have hw₁ : w₁.blobs = .memory es := hb.trans hw
    have hignored : Recorded judgingId reports w.store es w₁ := recorded_of_keepsRuns hw₁ hk
    -- a judgehost that may not report, or does not hold the judging, is ignored
    split
    · exact ⟨⟨_, _, rfl⟩, hignored⟩
    · refine leaves_bind.mpr (leaves_loadJudging ⟨es, hw₁, .refl⟩ fun j hfind => ?_)
      obtain rfl : j.id = judgingId := Table.key_of_find? hfind
      split
      · refine (leaves_recordBatch hw₁ reports now).mono ?_ fun _ hspill => hspill.after hk
        rintro ending w' ⟨hcommit, hrecorded⟩
        exact ⟨hcommit, hrecorded.after hk⟩
      · exact ⟨⟨_, _, rfl⟩, hignored⟩

end Grading

open Grading

/-- **What comes of a report of runs.** If it is answered, the batch is
recorded. If it fails, the store is as it was, but some output of the batch may
have been put. -/
theorem perform_reportRuns {w : World} {es : Entries BlobKey Bytes} (hw : w.blobs = .memory es)
    (hostname : String) (judgingId : Int) (reports : List RunReport) (ctx : Context) :
    (∃ a, ((Operation.reportRuns hostname judgingId reports).perform ctx w).answer = .ok a) ∧
        Recorded judgingId reports w.store es
          ((Operation.reportRuns hostname judgingId reports).perform ctx w).world ∨
      (∃ e, ((Operation.reportRuns hostname judgingId reports).perform ctx w).answer = .error e) ∧
        ((Operation.reportRuns hostname judgingId reports).perform ctx w).world.store = w.store ∧
        Spilled judgingId reports w.store es
          ((Operation.reportRuns hostname judgingId reports).perform ctx w).world := by
  have hleaves := leaves_reportRuns hw hostname judgingId reports ctx.now
  rcases transact_leaves hleaves fun _ hrecorded => hrecorded.spilled with
    hok | ⟨herror, hstore, w', ⟨es', hblobs, hspill⟩, hsame⟩
  · exact .inl hok
  · exact .inr ⟨herror, hstore, es', hsame.trans hblobs, hspill⟩

end JudgeQueue
