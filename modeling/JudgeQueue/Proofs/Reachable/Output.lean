import JudgeQueue.Proofs.Output.Archive
import JudgeQueue.Proofs.Reachable.Basic
/-!
# Reachable worlds — output of runs

A history is a world together with the batches that were reported on the way to
it, over blobs in memory that hold no output at first. In every history the
output of a run is that of the report which the run stands for, stream by
stream, but for one thing: where the report carries no output of a stream, the
output of a batch that failed before may show through.
-/

namespace JudgeQueue

/-- The batch that a request is, if it reports runs. -/
def Operation.batch? {α : Type} (op : Operation α) (ctx : Context) (w : World) : Option Batch :=
  op.reports?.map fun r =>
    ⟨r.1, r.2, !(op.perform ctx w).answer.isOk, w.store, (op.perform ctx w).world.store⟩

namespace World

/-- Requests lead to the world from supplied rows, and these are the batches
that they report, the last one first. -/
inductive History : World → List Batch → Prop
  | seeded (rows : Seed) (es : Entries BlobKey Bytes)
      (h : ∀ judgingId id kind, es.get? (.runOutput judgingId id kind) = none) :
      History (seeded rows (.memory es)) []
  | perform {α : Type} {w : World} {batches : List Batch} (h : History w batches)
      (op : Operation α) (ctx : Context) :
      History (op.perform ctx w).world ((op.batch? ctx w).toList ++ batches)

variable {w : World} {batches : List Batch}

/-- A report of runs is the last batch of its history. -/
theorem History.reportRuns (h : w.History batches) (hostname : String) (judgingId : Int)
    (reports : List RunReport) (ctx : Context) {failed : Bool}
    (hfailed : (!((Operation.reportRuns hostname judgingId reports).perform ctx w).answer.isOk) =
      failed) :
    ((Operation.reportRuns hostname judgingId reports).perform ctx w).world.History
      (⟨judgingId, reports, failed, w.store,
        ((Operation.reportRuns hostname judgingId reports).perform ctx w).world.store⟩ ::
        batches) := by
  subst hfailed
  exact h.perform (.reportRuns hostname judgingId reports) ctx

/-- **Histories are archives.** -/
theorem History.archive (h : w.History batches) :
    ∃ es, w.blobs = .memory es ∧ Archive batches w.store es := by
  induction h with
  | seeded rows es h => exact ⟨es, rfl, .nil (fun _ => Table.not_mem_empty) h⟩
  | @perform α w batches _ op ctx ih =>
    obtain ⟨es, hw, ha⟩ := ih
    cases hreports : op.reports? with
    | none =>
      have hbatch : op.batch? ctx w = none := by rw [Operation.batch?, hreports]; rfl
      obtain ⟨hblobs, hkeeps⟩ := perform_quiet hreports ctx w
      rw [hbatch]
      exact ⟨es, hblobs.trans hw, ha.keepsRuns hkeeps⟩
    | some r =>
      cases op with
      -- a failing batch has dropped its changes of the store, not its output
      | reportRuns hostname judgingId reports =>
        rcases perform_reportRuns hw hostname judgingId reports ctx with
          ⟨-, es', hblobs, -, hwrites⟩ | ⟨⟨e, herror⟩, hstore, es', hblobs, hspill⟩
        · exact ⟨es', hblobs, ha.writes rfl rfl hwrites⟩
        · refine ⟨es', hblobs, ?_⟩
          rw [hstore]
          exact ha.failed (by rw [herror]; rfl) rfl hstore hspill
      | _ => cases hreports

/-- What is answered for the output of a run, if it can be read. -/
theorem perform_runOutput {es : Entries BlobKey Bytes} (hw : w.blobs = .memory es)
    (judgingId id : Int) (kind : RunOutputKind) (ctx : Context)
    (hread : ctx.faults.onGet (.runOutput judgingId id kind) = none) :
    ((Operation.runOutput judgingId id kind).perform ctx w).answer =
      .ok (es.get? (.runOutput judgingId id kind)) := by
  simp only [Operation.perform, readBlob, hread, hw]
  rfl

/-- **A run answers for its own report.** Every run is recorded by a batch, in
which it stands for the first report of its testcase. Output of a stream that
this report carries is what is answered, the last of it if it is carried twice.
Where the report carries none, either none is answered or output that a batch on
the same judging, which failed, has left under the id. -/
theorem runOutput_of_records (h : w.History batches) {n : Run} (hn : n ∈ w.store.runs) :
    (∃ b ∈ batches, ∃ p, b.Records n p) ∧
    ∀ b ∈ batches, ∀ p, b.Records n p → ∀ (kind : RunOutputKind) (ctx : Context),
      ctx.faults.onGet (.runOutput n.judgingId n.id kind) = none →
      (∀ data, p.output? kind = some data →
        ((Operation.runOutput n.judgingId n.id kind).perform ctx w).answer = .ok (some data)) ∧
      (p.output? kind = none →
        ((Operation.runOutput n.judgingId n.id kind).perform ctx w).answer = .ok none ∨
        ∃ data, Batch.Stale batches n.judgingId n.id kind data ∧
          ((Operation.runOutput n.judgingId n.id kind).perform ctx w).answer =
            .ok (some data)) := by
  obtain ⟨es, hw, ha⟩ := h.archive
  refine ⟨ha.recorded n hn, fun b hb p hp kind ctx hread => ?_⟩
  obtain ⟨below, hget, hstale⟩ := ha.outputs n hn b hb p hp kind
  rw [perform_runOutput hw _ _ kind ctx hread, hget]
  refine ⟨fun data hdata => ?_, fun hnone => ?_⟩
  · rw [hdata]
    rfl
  · rw [hnone, Option.none_or]
    cases below with
    | none => exact .inl rfl
    | some data => exact .inr ⟨data, hstale data rfl, rfl⟩

/-! ## A report sent twice

In the small contest a judgehost reports the run of the second judging with its
output, along with a run of a testcase that does not exist. The batch fails.
The judgehost then reports the run alone, with its diff only. -/

/-- The batch that fails. -/
def foreignReports : List RunReport :=
  [⟨1, .accepted, 0, 0, [(.run, [65])]⟩, ⟨99, .accepted, 0, 0, []⟩]

/-- The report of the run alone. -/
def diffReport : RunReport :=
  ⟨1, .accepted, 0, 0, [(.diff, [66])]⟩

/-- The first batch has failed. -/
def contestForeign : World :=
  contestClaimed.after (.reportRuns "host" 2 foreignReports)

/-- The second batch is recorded. -/
def contestResent : World :=
  contestForeign.after (.reportRuns "host" 2 [diffReport])

/-- The second batch. -/
def resentBatch : Batch :=
  ⟨2, [diffReport], false, contestForeign.store, contestResent.store⟩

/-- Both batches, the last one first. -/
def contestBatches : List Batch :=
  [resentBatch, ⟨2, foreignReports, true, contestClaimed.store, contestForeign.store⟩]

theorem history_contestResent : contestResent.History contestBatches := by
  have hnone : ∀ judgingId id kind,
      Entries.get? ([] : Entries BlobKey Bytes) (.runOutput judgingId id kind) = none :=
    fun _ _ _ => rfl
  have hclaimed : contestClaimed.History [] :=
    (((((History.seeded contestRows [] hnone).perform _ _).perform _ _).perform _ _).perform
      _ _).perform _ _
  have hfailed : contestForeign.History
      [⟨2, foreignReports, true, contestClaimed.store, contestForeign.store⟩] :=
    hclaimed.reportRuns "host" 2 foreignReports contestContext (by decide +kernel)
  exact hfailed.reportRuns "host" 2 [diffReport] contestContext (by decide +kernel)

theorem records_contestResent :
    ∃ n ∈ contestResent.store.runs, n.judgingId = 2 ∧ n.id = 1 ∧
      resentBatch.Records n diffReport := by
  have hrun : ∃ n ∈ contestResent.store.runs.rows,
      n.judgingId = 2 ∧ n.id = 1 ∧ n.testcaseId = 1 := by decide +kernel
  have hbefore : ∀ n ∈ contestForeign.store.runs.rows, n.id ≠ 1 := by decide +kernel
  obtain ⟨n, hn, hjudging, hid, htestcase⟩ := hrun
  refine ⟨n, hn, hjudging, hid, hjudging, fun hold => hbefore n hold hid, hn, ?_⟩
  rw [htestcase]
  rfl

/-- The run answers with its diff, and with no output but that of the batch that
failed. -/
theorem runOutput_contestResent :
    contestResent.History contestBatches ∧ ∃ n ∈ contestResent.store.runs,
      resentBatch.Records n diffReport ∧
      ((Operation.runOutput n.judgingId n.id .diff).perform contestContext contestResent).answer =
        .ok (some [66]) ∧
      (((Operation.runOutput n.judgingId n.id .run).perform contestContext contestResent).answer =
          .ok none ∨
        ∃ data, Batch.Stale contestBatches n.judgingId n.id .run data ∧
          ((Operation.runOutput n.judgingId n.id .run).perform contestContext
            contestResent).answer = .ok (some data)) := by
  obtain ⟨n, hn, -, -, hp⟩ := records_contestResent
  have hout := (runOutput_of_records history_contestResent hn).2 resentBatch List.mem_cons_self
    diffReport hp
  exact ⟨history_contestResent, n, hn, hp, (hout .diff contestContext rfl).1 [66] rfl,
    (hout .run contestContext rfl).2 rfl⟩

/-- **Output of a batch that failed may show through.** So a run does not always
answer with what its report carries. -/
theorem not_forall_runOutput_eq :
    ¬ ∀ (w : World) (batches : List Batch) (b : Batch) (n : Run) (p : RunReport)
        (kind : RunOutputKind), w.History batches → n ∈ w.store.runs → b ∈ batches →
        b.Records n p →
        ((Operation.runOutput n.judgingId n.id kind).perform contestContext w).answer =
          .ok (p.output? kind) := by
  intro hall
  obtain ⟨n, hn, hjudging, hid, hp⟩ := records_contestResent
  have hnone := hall contestResent contestBatches resentBatch n diffReport .run
    history_contestResent hn List.mem_cons_self hp
  rw [hjudging, hid] at hnone
  have hstale : (match ((Operation.runOutput 2 1 .run).perform contestContext
      contestResent).answer with
    | .ok data => data.isSome
    | .error _ => true) = true := by decide +kernel
  rw [hnone] at hstale
  cases hstale

end World

end JudgeQueue
