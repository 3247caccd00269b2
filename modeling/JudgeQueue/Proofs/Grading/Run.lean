import JudgeQueue.Proofs.Grading.Next
import JudgeQueue.Proofs.Trace.Grading
import JudgeQueue.Proofs.Transaction.Leaves
import JudgeQueue.Proofs.Transaction.Run
/-!
# Grading — requests of a judgehost without faults

What becomes of a judgehost's requests while it is known and switched on and
holds the judging that it asks about. Asking for a testcase answers what is
next. Reporting runs records those that are new and grades the judging, if the
blob store takes their output.
-/

namespace JudgeQueue

open Transaction

/-! ## Blob stores that refuse nothing -/

namespace Blobs

/-- Keeps several blobs one after another. -/
def putAll (b : Blobs) (entries : List (BlobKey × Bytes)) : Except FileError Blobs :=
  entries.foldlM (fun b e => b.put e.1 e.2) b

/-- The store takes any blobs, in any number and order. -/
def TakesAll (b : Blobs) : Prop :=
  ∀ entries, ∃ b', b.putAll entries = .ok b'

theorem putAll_cons (b : Blobs) (e : BlobKey × Bytes) (rest : List (BlobKey × Bytes)) :
    b.putAll (e :: rest) = b.put e.1 e.2 >>= fun b' => b'.putAll rest :=
  List.foldlM_cons

/-- Blobs are kept one part after another. -/
theorem exists_of_putAll_append {b b' : Blobs} {first rest : List (BlobKey × Bytes)}
    (h : b.putAll (first ++ rest) = .ok b') :
    ∃ b₁, b.putAll first = .ok b₁ ∧ b₁.putAll rest = .ok b' := by
  rw [putAll, List.foldlM_append] at h
  cases hfirst : b.putAll first with
  | error e =>
    rw [putAll] at hfirst
    rw [hfirst] at h
    cases h
  | ok b₁ =>
    rw [putAll] at hfirst
    rw [hfirst] at h
    exact ⟨b₁, rfl, h⟩

/-- What takes all blobs does so still after it has taken some. -/
theorem TakesAll.putAll {b : Blobs} (h : b.TakesAll) (entries : List (BlobKey × Bytes)) :
    ∃ b', b.putAll entries = .ok b' ∧ b'.TakesAll := by
  obtain ⟨b', hput⟩ := h entries
  refine ⟨b', hput, fun more => ?_⟩
  obtain ⟨b₂, hall⟩ := h (entries ++ more)
  obtain ⟨b₁, hfirst, hmore⟩ := exists_of_putAll_append hall
  rw [hput] at hfirst
  cases hfirst
  exact ⟨b₂, hmore⟩

/-- Nor does it refuse one. -/
theorem TakesAll.put {b : Blobs} (h : b.TakesAll) (k : BlobKey) (data : Bytes) :
    ∃ b', b.put k data = .ok b' ∧ b'.TakesAll := by
  obtain ⟨b', hput, hall⟩ := h.putAll [(k, data)]
  have hone : b.putAll [(k, data)] = b.put k data := (putAll_cons b _ []).trans (bind_pure _)
  exact ⟨b', hone ▸ hput, hall⟩

/-- A store in memory refuses nothing. -/
theorem takesAll_memory (blobs : Entries BlobKey Bytes) : (memory blobs).TakesAll := by
  intro entries
  induction entries generalizing blobs with
  | nil => exact ⟨memory blobs, rfl⟩
  | cons e rest ih => exact ih (blobs.put e.1 e.2)

theorem takesAll_of_count? {b : Blobs} (h : b.count?.isSome = true) : b.TakesAll := by
  cases b with
  | memory blobs => exact takesAll_memory blobs
  | files tree => cases h

/-- Nor does it once a program has run on it, as far as that gets. -/
theorem TakesAll.leaves {α : Type} {w : World} (h : w.blobs.TakesAll) (x : Transaction α) :
    x.Leaves w (fun _ w' => w'.blobs.TakesAll) fun w' => w'.blobs.TakesAll := by
  induction x generalizing w with
  | done a => exact h
  | fail e => exact h
  | query q next ih => exact ⟨h, fun b store _ => ih b h⟩
  | put key data next ih =>
    refine ⟨h, fun blobs hput => ih ?_⟩
    obtain ⟨b, hb, hall⟩ := h.put key data
    rw [hput, Except.ok.injEq] at hb
    rwa [hb]

/-- Nor once a request has been answered. -/
theorem TakesAll.transact {α : Type} {w : World} (h : w.blobs.TakesAll) (ctx : Context)
    (body : Transaction (Ending α)) : (transact ctx w body).world.blobs.TakesAll := by
  rcases (h.leaves body).transact ctx with
    ⟨a, es, w', hleft, heq⟩ | ⟨a, w', hleft, heq⟩ | ⟨e, w', hleft, heq⟩
  · rwa [heq]
  · rwa [heq]
  · rw [heq]
    exact hleft.elim (fun ⟨_, _, hall⟩ => hall) id

end Blobs

/-! ## Lookups -/

section Lookup

variable {w : World}

theorem run_loadSubmission {r : Submission} (hr : r ∈ w.store.submissions) :
    (loadSubmission r.id).run w = (.ok r, w) := by
  have hfind : w.store.submissions.find? r.id = some r := Table.find?_key hr
  rw [loadSubmission, run_bind (run_ask rfl), hfind]
  rfl

theorem run_loadJudging {j : Judging} (hj : j ∈ w.store.judgings) :
    (loadJudging j.id).run w = (.ok j, w) := by
  have hfind : w.store.judgings.find? j.id = some j := Table.find?_key hj
  rw [loadJudging, run_bind (run_ask rfl), hfind]
  rfl

theorem run_loadSubmission_of_unknown {id : Int} (hnone : w.store.submissions.find? id = none) :
    (loadSubmission id).run w = (.error (.notFound (.submission id)), w) := by
  rw [loadSubmission, run_bind (run_ask rfl), hnone]
  rfl

theorem run_loadJudging_of_unknown {id : Int} (hnone : w.store.judgings.find? id = none) :
    (loadJudging id).run w = (.error (.notFound (.judging id)), w) := by
  rw [loadJudging, run_bind (run_ask rfl), hnone]
  rfl

/-- **A judgehost that calls is heard of**, if it is known; whether it may get
work is another matter. -/
theorem run_heartbeat (hostname : String) (now : Instant) :
    (heartbeat hostname now).run w =
      (.ok (w.store.admits hostname),
        { w with store := w.store.touchJudgehost hostname now }) := by
  cases hfind : w.store.judgehosts.find? hostname with
  | none =>
    rw [Store.touchJudgehost_of_unknown hfind, Store.admits, heartbeat, run_bind (run_ask rfl),
      hfind]
    rfl
  | some host =>
    rw [Store.admits, heartbeat, run_bind (run_ask rfl), hfind]
    rfl

/-- A judgehost that is known and switched on may get work. -/
theorem run_heartbeat_of_active {host : Judgehost} (hhost : host ∈ w.store.judgehosts)
    (hactive : host.active = true) (now : Instant) :
    (heartbeat host.hostname now).run w =
      (.ok true, { w with store := w.store.touchJudgehost host.hostname now }) := by
  have hfind : w.store.judgehosts.find? host.hostname = some host := Table.find?_key hhost
  rw [run_heartbeat, Store.admits, hfind, Option.any_some, hactive]

end Lookup

namespace Grading

variable {w : World}

/-! ## Recording reports -/

/-- The blobs that a batch puts, whose runs get the ids after `last`. -/
def outputEntries (judgingId last : Int) : List RunReport → List (BlobKey × Bytes)
  | [] => []
  | r :: rest =>
    r.outputs.map (fun o => (.runOutput judgingId (last + 1) o.1, o.2)) ++
      outputEntries judgingId (last + 1) rest

theorem run_putOutputs {judgingId runId : Int} {outputs : List (RunOutputKind × Bytes)} {b : Blobs}
    (hput : w.blobs.putAll (outputs.map fun o => (.runOutput judgingId runId o.1, o.2)) = .ok b) :
    (putOutputs judgingId runId outputs).run w = (.ok (), { w with blobs := b }) := by
  induction outputs generalizing w with
  | nil =>
    cases hput
    rfl
  | cons output rest ih =>
    rw [List.map_cons, Blobs.putAll_cons] at hput
    cases hone : w.blobs.put (.runOutput judgingId runId output.1) output.2 with
    | error e =>
      rw [hone] at hput
      cases hput
    | ok b₁ =>
      rw [hone] at hput
      have hrun : (putBlob (.runOutput judgingId runId output.1) output.2).run w =
          (.ok (), { w with blobs := b₁ }) := by
        simp only [putBlob, Transaction.run, hone]
      exact (run_bind hrun).trans (ih (w := { w with blobs := b₁ }) hput)

/-- **Reports of known testcases** are recorded but for those that have been
seen, if their output is taken. -/
theorem run_recordRuns {judgingId : Int} (problemId : Int) {testcases : List Testcase}
    (now : Instant) {seen : List Int} {reports : List RunReport} {b : Blobs}
    (hput : w.blobs.putAll (outputEntries judgingId w.store.lastRun (fresh seen reports)) = .ok b)
    (hknown : ∀ p ∈ reports, ∃ t ∈ testcases, t.id = p.testcaseId) :
    (recordRuns judgingId problemId testcases now seen reports).run w =
      (.ok (fragment (fresh seen reports)),
        ⟨w.store.recordRuns judgingId now (fresh seen reports), b⟩) := by
  induction reports generalizing w seen with
  | nil =>
    cases hput
    rfl
  | cons r rest ih =>
    obtain ⟨⟨t, ht, hid⟩, hknown⟩ := List.forall_mem_cons.mp hknown
    have hfound : testcases.any (fun t => t.id = r.testcaseId) = true :=
      List.any_eq_true.mpr ⟨t, ht, decide_eq_true hid⟩
    have hcheck : (unlessError (testcases.any fun t => t.id = r.testcaseId)
        (.invalidInput (.foreignTestcase r.testcaseId problemId))).run w = (.ok (), w) := by
      rw [unlessError, if_pos hfound]
      rfl
    rw [fresh] at hput ⊢
    rw [recordRuns, run_bind hcheck]
    split at hput
    · next hseen =>
      rw [if_pos hseen, if_pos hseen]
      exact ih hput hknown
    · next hseen =>
      -- the run is recorded, then its output is kept
      obtain ⟨b₁, hfirst, hrest⟩ := Blobs.exists_of_putAll_append hput
      have houtput : (putOutputs judgingId
            (w.store.insertRun (RunReport.toRun r judgingId now)).1.id r.outputs).run
          { w with store := (w.store.insertRun (RunReport.toRun r judgingId now)).2 } =
          (.ok (), ⟨(w.store.insertRun (RunReport.toRun r judgingId now)).2, b₁⟩) :=
        run_putOutputs hfirst
      have hrecord := ih
        (w := ⟨(w.store.insertRun (RunReport.toRun r judgingId now)).2, b₁⟩) hrest hknown
      rw [if_neg hseen, if_neg hseen, run_bind (run_ask rfl), run_bind houtput, run_bind hrecord]
      rfl

/-- A report of a testcase of another problem makes the whole batch fail. The
first such report is told of. -/
theorem run_recordRuns_foreign (hb : w.blobs.TakesAll) (judgingId problemId : Int)
    {testcases : List Testcase} (now : Instant) (seen : List Int) {reports : List RunReport}
    {p : RunReport}
    (hp : reports.find? (fun r => !testcases.any fun t => t.id = r.testcaseId) = some p) :
    ∃ w₁, (recordRuns judgingId problemId testcases now seen reports).run w =
      (.error (.invalidInput (.foreignTestcase p.testcaseId problemId)), w₁) := by
  induction reports generalizing w seen with
  | nil => cases hp
  | cons r rest ih =>
    rw [List.find?_cons] at hp
    rw [recordRuns]
    cases hfound : testcases.any (fun t => t.id = r.testcaseId) with
    | false =>
      rw [hfound] at hp
      cases hp
      exact ⟨w, run_bind_error rfl⟩
    | true =>
      rw [hfound] at hp
      have hpass : (unlessError true (.invalidInput
          (.foreignTestcase r.testcaseId problemId))).run w = (.ok (), w) := rfl
      rw [run_bind hpass]
      split
      · exact ih hb seen hp
      · obtain ⟨b, hput, hb'⟩ := hb.putAll (r.outputs.map fun o => (.runOutput judgingId
          (w.store.insertRun (RunReport.toRun r judgingId now)).1.id o.1, o.2))
        have houtput := run_putOutputs
          (w := { w with store := (w.store.insertRun (RunReport.toRun r judgingId now)).2 }) hput
        obtain ⟨w₁, hrest⟩ := ih (w := ⟨(w.store.insertRun (RunReport.toRun r judgingId now)).2, b⟩)
          hb' (r.testcaseId :: seen) hp
        exact ⟨w₁, by rw [run_bind (run_ask rfl), run_bind houtput, run_bind_error hrest]⟩

/-! ## Batches -/

section Batch

variable {j : Judging} {r : Submission} {reports : List RunReport}

/-- How a batch ends, once its runs are recorded. -/
def conclude (j : Judging) (runs : List Run) (testcases : List Testcase) (text : String)
    (now : Instant) : Transaction (Ending (Option Judging)) := do
  let summary := Summary.ofRuns runs testcases
  let graded := { j with runVerdicts := j.runVerdicts ++ text }
  if summary.isComplete j.fullTest testcases.length then
    let finished := finish graded summary now
    ask (.updateJudging finished)
    commit (some finished) [.judgingFinished j.id j.submissionId]
  else if text.isEmpty then commit (some j) []
  else
    ask (.appendRunVerdicts j.id text)
    commit (some graded) []

theorem run_updateJudging {s' : Store} (h : w.store.updateJudging j = .ok s') :
    (ask (.updateJudging j)).run w = (.ok (), { w with store := s' }) := by
  have hquery : (Query.updateJudging j).run w.store = .ok ((), s') := by
    rw [Query.run, h]
    rfl
  exact run_ask hquery

theorem run_appendRunVerdicts {id : Int} {text : String} {s' : Store}
    (h : w.store.appendRunVerdicts id text = .ok s') :
    (ask (.appendRunVerdicts id text)).run w = (.ok (), { w with store := s' }) := by
  have hquery : (Query.appendRunVerdicts id text).run w.store = .ok ((), s') := by
    rw [Query.run, h]
    rfl
  exact run_ask hquery

/-- What is told of a batch: that its judging has ended, if it has. -/
def told (j : Judging) (runs : List Run) (testcases : List Testcase) : List Event :=
  if (Summary.ofRuns runs testcases).isComplete j.fullTest testcases.length
  then [.judgingFinished j.id j.submissionId] else []

/-- **A batch ends** with the judging graded, whatever has to be written. -/
theorem run_conclude (hj : j ∈ w.store.judgings) (runs : List Run) (testcases : List Testcase)
    (text : String) (now : Instant) :
    (conclude j runs testcases text now).run w =
      (.ok (.commit (some (graded j runs testcases text now)) (told j runs testcases)),
        { w with
          store := { w.store with
            judgings := w.store.judgings.modify j.id (graded · runs testcases text now)
              (key_graded · runs testcases text now) } }) := by
  have hkey := (key_graded · runs testcases text now)
  unfold conclude told
  by_cases hcomplete :
      (Summary.ofRuns runs testcases).isComplete j.fullTest testcases.length = true
  · have hgraded := graded_of_complete hcomplete text now
    have hwrite := Store.updateJudging_eq
      (j := finish { j with runVerdicts := j.runVerdicts ++ text }
        (Summary.ofRuns runs testcases) now) hj rfl hkey hgraded.symm
    rw [if_pos hcomplete, if_pos hcomplete, run_bind (run_updateJudging hwrite), hgraded]
    rfl
  · have hgraded := graded_of_incomplete hcomplete text now
    rw [if_neg hcomplete, if_neg hcomplete]
    by_cases hempty : text.isEmpty = true
    · -- nothing was recorded, and the judging stays as it is
      have hstays : graded j runs testcases text now = j := by
        rw [hgraded, String.isEmpty_iff.mp hempty, String.append_empty]
      have hsame : w.store.judgings.modify j.id _ hkey = w.store.judgings := by
        refine Table.update_eq_self fun a ha hid => ?_
        rw [Store.judging_eq ha hj (of_decide_eq_true hid), hstays]
      rw [if_pos hempty, hsame, hstays]
      rfl
    · have hwrite := appendRunVerdicts_eq hj hkey hgraded.symm
      rw [if_neg hempty, run_bind (run_appendRunVerdicts hwrite), hgraded]
      rfl

variable {recorded : List RunReport} {b : Blobs}

/-- **Recording a batch** grades the judging by the reports that are new, if
their output is taken. -/
theorem run_recordBatch (hj : j ∈ w.store.judgings) (hr : r ∈ w.store.submissions)
    (hsub : j.submissionId = r.id)
    (hknown : ∀ p ∈ reports, ∃ t ∈ w.store.testcasesOf r.problemId, t.id = p.testcaseId)
    (hrecorded : fresh ((w.store.runsOf j.id).map Run.testcaseId) reports = recorded)
    (hput : w.blobs.putAll (outputEntries j.id w.store.lastRun recorded) = .ok b)
    (now : Instant) :
    (recordBatch j reports now).run w =
      (.ok (.commit
        (some (graded j ((w.store.recordRuns j.id now recorded).runsOf j.id)
          (w.store.testcasesOf r.problemId) (fragment recorded) now))
        (told j ((w.store.recordRuns j.id now recorded).runsOf j.id)
          (w.store.testcasesOf r.problemId))),
        ⟨w.store.grade j.id r.problemId recorded now, b⟩) := by
  subst hrecorded
  have hrecord := run_recordRuns r.problemId now hput hknown
  have hload : (loadSubmission j.submissionId).run w = (.ok r, w) := by
    rw [hsub]
    exact run_loadSubmission hr
  generalize fresh ((w.store.runsOf j.id).map Run.testcaseId) reports = recorded at *
  have hmem : j ∈ (w.store.recordRuns j.id now recorded).judgings := by
    have hjud : (w.store.recordRuns j.id now recorded).judgings = w.store.judgings :=
      Store.recordRuns_congr Store.judgings fun _ _ => rfl
    rw [hjud]
    exact hj
  have hbegin : (recordBatch j reports now).run w =
      (conclude j ((w.store.recordRuns j.id now recorded).runsOf j.id)
        (w.store.testcasesOf r.problemId) (fragment recorded) now).run
        ⟨w.store.recordRuns j.id now recorded, b⟩ := by
    rw [recordBatch, run_bind hload, run_bind (run_ask rfl), run_bind (run_ask rfl),
      run_bind hrecord, run_bind (run_ask rfl)]
    rfl
  rw [grade_eq]
  exact hbegin.trans (run_conclude (w := ⟨w.store.recordRuns j.id now recorded, b⟩) hmem _ _ _ now)

/-- A report on the judging that its judgehost holds is recorded once the judgehost
has been heard of. -/
theorem run_reportRuns_of_held {hostname : String} (hmay : w.store.admits hostname = true)
    (hj : j ∈ w.store.judgings) (hheld : j.isClaimedBy hostname = true)
    (hverdict : ∀ p ∈ reports, p.verdict.isRunVerdict = true) (now : Instant) :
    (reportRuns hostname j.id reports now).run w =
      (recordBatch j reports now).run
        { w with store := w.store.touchJudgehost hostname now } := by
  have hnone : reports.find? (fun p => !p.verdict.isRunVerdict) = none := by
    rw [List.find?_eq_none]
    intro p hp
    simp [hverdict p hp]
  have hload : (loadJudging j.id).run
      { w with store := w.store.touchJudgehost hostname now } = (.ok j, _) :=
    run_loadJudging hj
  simp only [reportRuns, hnone]
  rw [run_bind (run_heartbeat hostname now), hmay, Bool.not_true, if_neg Bool.false_ne_true,
    run_bind hload, if_pos hheld]

/-- **A judgehost reports runs** of the judging that it holds. -/
theorem run_reportRuns {host : Judgehost} (hhost : host ∈ w.store.judgehosts)
    (hactive : host.active = true) (hj : j ∈ w.store.judgings)
    (hheld : j.isClaimedBy host.hostname = true) (hr : r ∈ w.store.submissions)
    (hsub : j.submissionId = r.id)
    (hverdict : ∀ p ∈ reports, p.verdict.isRunVerdict = true)
    (hknown : ∀ p ∈ reports, ∃ t ∈ w.store.testcasesOf r.problemId, t.id = p.testcaseId)
    (hrecorded : fresh ((w.store.runsOf j.id).map Run.testcaseId) reports = recorded)
    (hput : w.blobs.putAll (outputEntries j.id w.store.lastRun recorded) = .ok b)
    (now : Instant) :
    (reportRuns host.hostname j.id reports now).run w =
      (.ok (.commit
        (some (graded j
          (((w.store.touchJudgehost host.hostname now).recordRuns j.id now recorded).runsOf j.id)
          (w.store.testcasesOf r.problemId) (fragment recorded) now))
        (told j
          (((w.store.touchJudgehost host.hostname now).recordRuns j.id now recorded).runsOf j.id)
          (w.store.testcasesOf r.problemId))),
        ⟨(w.store.touchJudgehost host.hostname now).grade j.id r.problemId recorded now, b⟩) := by
  have hrecord := run_recordBatch
    (w := { w with store := w.store.touchJudgehost host.hostname now }) hj hr hsub hknown hrecorded
    hput now
  have hmay : w.store.admits host.hostname = true :=
    Store.admits_iff.mpr ⟨host, hhost, rfl, hactive⟩
  exact (run_reportRuns_of_held hmay hj hheld hverdict now).trans hrecord

end Batch

end Grading

namespace Dispatch

variable {w : World} {host : Judgehost} {j : Judging} {r : Submission} {p : Problem}

/-- **A judgehost asks for the next testcase** of the judging that it holds. -/
theorem run_claimTestcase (hhost : host ∈ w.store.judgehosts) (hactive : host.active = true)
    (hj : j ∈ w.store.judgings) (hheld : j.isClaimedBy host.hostname = true)
    (hr : r ∈ w.store.submissions) (hsub : j.submissionId = r.id) (hp : p ∈ w.store.problems)
    (hproblem : p.id = r.problemId) (hallow : p.allowJudge = true) (now : Instant) :
    (claimTestcase host.hostname j.id now).run w =
      (.ok (.commit (nextTestcase j.fullTest (w.store.testcasesOf r.problemId)
        (w.store.runsOf j.id)) []),
        { w with store := w.store.touchJudgehost host.hostname now }) := by
  have hload : (loadJudging j.id).run
      { w with store := w.store.touchJudgehost host.hostname now } = (.ok j, _) :=
    run_loadJudging hj
  have hfound : (loadSubmission r.id).run
      { w with store := w.store.touchJudgehost host.hostname now } = (.ok r, _) :=
    run_loadSubmission hr
  have hfind : w.store.problems.find? r.problemId = some p := hproblem ▸ Table.find?_key hp
  have hopen : (w.store.touchJudgehost host.hostname now).problems.find? r.problemId = some p :=
    hfind
  rw [claimTestcase, run_bind (run_heartbeat_of_active hhost hactive now), Bool.not_true,
    if_neg Bool.false_ne_true, run_bind hload, hheld, Bool.not_true, if_neg Bool.false_ne_true,
    hsub, run_bind hfound, run_bind (run_ask rfl), hopen, Option.any_some, hallow, Bool.not_true,
    if_neg Bool.false_ne_true, run_bind (run_ask rfl), run_bind (run_ask rfl)]
  rfl

/-- A judgehost is handed no testcase of a judging that it does not hold. -/
theorem run_claimTestcase_of_not_held (hhost : host ∈ w.store.judgehosts)
    (hactive : host.active = true) (hj : j ∈ w.store.judgings)
    (hheld : j.isClaimedBy host.hostname = false) (now : Instant) :
    (claimTestcase host.hostname j.id now).run w =
      (.ok (.commit none []), { w with store := w.store.touchJudgehost host.hostname now }) := by
  have hload : (loadJudging j.id).run
      { w with store := w.store.touchJudgehost host.hostname now } = (.ok j, _) :=
    run_loadJudging hj
  rw [claimTestcase, run_bind (run_heartbeat_of_active hhost hactive now), Bool.not_true,
    if_neg Bool.false_ne_true, run_bind hload, hheld, Bool.not_false, if_pos rfl]
  rfl

end Dispatch

end JudgeQueue
