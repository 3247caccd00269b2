import JudgeQueue.Proofs.Output.Report
/-!
# Output of runs — what lies where

Under the id of a run lies the output of the report that it stands for. The
blobs are not dropped with a batch that fails, and the ids that it drew are
drawn again: so under an id there may also lie output that such a batch has
left, and a report that carries no output of a stream does not put anything
over it. An archive says this of the runs that are there and of the ids that
are free, and requests keep it.
-/

namespace JudgeQueue

open Grading

/-- A batch of reports on a judging, whether it failed, and the store before
and after it. -/
structure Batch where
  judgingId : Int
  reports : List RunReport
  failed : Bool
  before : Store
  after : Store

namespace Batch

/-- A batch has recorded a run, which stands for the report. -/
structure Records (b : Batch) (n : Run) (p : RunReport) : Prop where
  judgingId : n.judgingId = b.judgingId
  fresh : ¬ n ∈ b.before.runs
  held : n ∈ b.after.runs
  report : b.reports.find? (fun p => p.testcaseId = n.testcaseId) = some p

/-- Output under an id is stale if a batch that failed has left it there, after
it had drawn the id. -/
def Stale (batches : List Batch) (judgingId id : Int) (kind : RunOutputKind) (data : Bytes) :
    Prop :=
  ∃ b ∈ batches, b.failed = true ∧ b.judgingId = judgingId ∧ b.before.lastRun < id ∧
    ∃ p ∈ b.reports, (kind, data) ∈ p.outputs

theorem Stale.cons {batches : List Batch} {judgingId id : Int} {kind : RunOutputKind}
    {data : Bytes} (h : Stale batches judgingId id kind data) (b : Batch) :
    Stale (b :: batches) judgingId id kind data := by
  obtain ⟨c, hc, hstale⟩ := h
  exact ⟨c, List.mem_cons_of_mem _ hc, hstale⟩

end Batch

open Batch

/-- After some batches every run is recorded by one of them. Its output is that
of its report, over output that is stale at most; whatever lies under ids that
are free is stale. -/
structure Archive (batches : List Batch) (s : Store) (es : Entries BlobKey Bytes) : Prop where
  recorded : ∀ n ∈ s.runs, ∃ b ∈ batches, ∃ p, b.Records n p
  known : ∀ b ∈ batches, ∀ n ∈ b.after.runs, n.id ≤ s.lastRun
  outputs : ∀ n ∈ s.runs, ∀ b ∈ batches, ∀ p, b.Records n p → ∀ kind, ∃ below : Option Bytes,
    es.get? (.runOutput n.judgingId n.id kind) = (p.output? kind).or below ∧
      ∀ data, below = some data → Stale batches n.judgingId n.id kind data
  free : ∀ judgingId id kind data, s.lastRun < id →
    es.get? (.runOutput judgingId id kind) = some data → Stale batches judgingId id kind data

namespace Archive

variable {batches : List Batch} {b : Batch} {s s' : Store} {es es' : Entries BlobKey Bytes}

/-- Before any batch there are neither runs nor output. -/
theorem nil (hruns : ∀ n, ¬ n ∈ s.runs)
    (hes : ∀ judgingId id kind, es.get? (.runOutput judgingId id kind) = none) :
    Archive [] s es := by
  refine ⟨fun n hn => absurd hn (hruns n), ?_, fun n hn => absurd hn (hruns n), ?_⟩
  · intro b hb
    cases hb
  · intro judgingId id kind data _ hdata
    rw [hes] at hdata
    cases hdata

/-- The ids of runs have been drawn. -/
theorem id_le (h : Archive batches s es) {n : Run} (hn : n ∈ s.runs) : n.id ≤ s.lastRun := by
  obtain ⟨b, hb, p, hp⟩ := h.recorded n hn
  exact h.known b hb n hp.held

/-- Requests that record nothing keep the archive. -/
theorem keepsRuns (h : Archive batches s es) (hkeeps : s.KeepsRuns s') : Archive batches s' es := by
  obtain ⟨hlast, hruns⟩ := hkeeps
  refine ⟨fun n hn => h.recorded n (hruns n hn), ?_, fun n hn => h.outputs n (hruns n hn), ?_⟩
  · rw [hlast]
    exact h.known
  · rw [hlast]
    exact h.free

/-- **A batch that fails** touches no output of a run, and what it leaves is
stale. -/
theorem failed (h : Archive batches s es) (hfailed : b.failed = true) (hbefore : b.before = s)
    (hafter : b.after = s) (hspill : Spills b.judgingId b.reports s.lastRun es es') :
    Archive (b :: batches) s es' := by
  refine ⟨?recorded, ?known, ?outputs, ?free⟩
  case recorded =>
    intro n hn
    obtain ⟨c, hc, hp⟩ := h.recorded n hn
    exact ⟨c, List.mem_cons_of_mem _ hc, hp⟩
  case known =>
    intro c hc n hn
    rcases List.mem_cons.mp hc with rfl | hc
    · rw [hafter] at hn
      exact h.id_le hn
    · exact h.known c hc n hn
  case outputs =>
    intro n hn c hc p hp kind
    rcases List.mem_cons.mp hc with rfl | hc
    · exact absurd (hbefore ▸ hn) hp.fresh
    · -- the ids under which output has spilled are still free
      obtain ⟨below, hget, hstale⟩ := h.outputs n hn c hc p hp kind
      rw [← hspill.get?_of_le (h.id_le hn) kind] at hget
      exact ⟨below, hget, fun data hdata => (hstale data hdata).cons b⟩
  case free =>
    intro judgingId id kind data hlt hdata
    rcases hspill (.runOutput judgingId id kind) with hsame | ⟨_, _, _, hkey, -, hput, p, hp, hout⟩
    · rw [hsame] at hdata
      exact (h.free judgingId id kind data hlt hdata).cons b
    · obtain ⟨rfl, rfl, rfl⟩ := BlobKey.runOutput.inj hkey
      cases hput.symm.trans hdata
      exact ⟨b, List.mem_cons_self, hfailed, rfl, by rwa [hbefore], p, hp, hout⟩

/-- A run that was there is not recorded again, and one that is new was not
there. -/
theorem records_of_writes (h : Archive batches s es) (hbefore : b.before = s)
    (hafter : b.after = s') (hwrites : Writes b.judgingId b.reports s es s' es') {n : Run}
    (hn : n ∈ s'.runs) :
    n ∈ s.runs ∨ s.lastRun < n.id ∧ n.id ≤ s'.lastRun ∧ ∃ p, b.Records n p ∧
      ∀ kind, es'.get? (.runOutput n.judgingId n.id kind) =
        (p.output? kind).or (es.get? (.runOutput n.judgingId n.id kind)) := by
  rcases hwrites.runs n hn with hold | ⟨hlt, hid, hjudging, p, hp, hout⟩
  · exact .inl hold
  · have hfresh : ¬ n ∈ b.before.runs := by
      rw [hbefore]
      intro hold
      have hdrawn := h.id_le hold
      omega
    rw [hjudging]
    exact .inr ⟨hlt, hid, p, ⟨hjudging, hfresh, hafter ▸ hn, hp⟩, hout⟩

/-- **A batch that is recorded** puts the output of its runs over what was
stale. -/
theorem writes (h : Archive batches s es) (hbefore : b.before = s) (hafter : b.after = s')
    (hwrites : Writes b.judgingId b.reports s es s' es') : Archive (b :: batches) s' es' := by
  have hle := hwrites.lastRun_le
  have hruns := fun n (hn : n ∈ s'.runs) => h.records_of_writes hbefore hafter hwrites hn
  refine ⟨?recorded, ?known, ?outputs, ?free⟩
  case recorded =>
    intro n hn
    rcases hruns n hn with hold | ⟨-, -, p, hp, -⟩
    · obtain ⟨c, hc, hp⟩ := h.recorded n hold
      exact ⟨c, List.mem_cons_of_mem _ hc, hp⟩
    · exact ⟨b, List.mem_cons_self, p, hp⟩
  case known =>
    intro c hc n hn
    rcases List.mem_cons.mp hc with rfl | hc
    · rw [hafter] at hn
      rcases hruns n hn with hold | ⟨-, hid, -⟩
      · exact Int.le_trans (h.id_le hold) hle
      · exact hid
    · exact Int.le_trans (h.known c hc n hn) hle
  case outputs =>
    intro n hn c hc p hp kind
    rcases hruns n hn with hold | ⟨hlt, hid, q, hq, hout⟩
    · rcases List.mem_cons.mp hc with rfl | hc
      · exact absurd (hbefore ▸ hold) hp.fresh
      · -- the batch draws later ids only, so this run keeps its output
        obtain ⟨below, hget, hstale⟩ := h.outputs n hold c hc p hp kind
        rw [← hwrites.get?_of_not_drawn (.inl (h.id_le hold)) kind] at hget
        exact ⟨below, hget, fun data hdata => (hstale data hdata).cons b⟩
    · rcases List.mem_cons.mp hc with rfl | hc
      · -- the id was free, so whatever lay there is stale
        cases hq.report.symm.trans hp.report
        exact ⟨_, hout kind, fun data hdata =>
          (h.free n.judgingId n.id kind data hlt hdata).cons c⟩
      · have hdrawn := h.known c hc n hp.held
        omega
  case free =>
    intro judgingId id kind data hlt hdata
    rw [hwrites.get?_of_not_drawn (.inr hlt) kind] at hdata
    exact (h.free judgingId id kind data (by omega) hdata).cons b

end Archive

end JudgeQueue
