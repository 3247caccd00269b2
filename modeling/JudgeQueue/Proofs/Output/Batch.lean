import JudgeQueue.Operation
import JudgeQueue.Proofs.Transaction.Leaves
/-!
# Output of runs — a batch of reports

Output is put under the id of its run while the batch is still under way. A
batch that succeeds records its runs under new ids, and under each of these
lies the output that was reported with it, on top of what lay there before. A
batch that fails leaves the output it has put, under ids that are free again.
-/

namespace JudgeQueue

open Transaction

namespace Entries

variable {α β : Type} [DecidableEq α]

theorem get?_put (es : Entries α β) (a b : α) (v : β) :
    (es.put a v).get? b = if a = b then some v else es.get? b := by
  rw [get?, put, List.find?_cons]
  by_cases h : a = b
  · rw [decide_eq_true h, if_pos h]
    rfl
  · rw [decide_eq_false h, if_neg h, get?, List.find?_filter]
    simp only
    congr 2
    funext e
    by_cases he : e.1 = b
    · simp [he, Ne.symm h]
    · simp [he]

end Entries

/-! ## What is reported -/

/-- The last entry of a stream among some output. -/
def lastOutput (outputs : List (RunOutputKind × Bytes)) (kind : RunOutputKind) : Option Bytes :=
  (outputs.reverse.find? fun o => o.1 = kind).map Prod.snd

theorem lastOutput_cons (o : RunOutputKind × Bytes) (rest : List (RunOutputKind × Bytes))
    (kind : RunOutputKind) :
    lastOutput (o :: rest) kind =
      (lastOutput rest kind).or (if o.1 = kind then some o.2 else none) := by
  rw [lastOutput, lastOutput, List.reverse_cons, List.find?_append]
  by_cases h : o.1 = kind
  · rw [if_pos h]
    cases rest.reverse.find? fun o => o.1 = kind <;> simp [h]
  · rw [if_neg h]
    cases rest.reverse.find? fun o => o.1 = kind <;> simp [h]

/-- The output of a stream that a report carries. -/
def RunReport.output? (p : RunReport) (kind : RunOutputKind) : Option Bytes :=
  lastOutput p.outputs kind

namespace Grading

/-- Some of the output of one run may have been put. -/
def Puts (judgingId runId : Int) (outputs : List (RunOutputKind × Bytes))
    (es es' : Entries BlobKey Bytes) : Prop :=
  ∀ key, es'.get? key = es.get? key ∨ ∃ kind data, key = .runOutput judgingId runId kind ∧
    es'.get? key = some data ∧ (kind, data) ∈ outputs

/-- Some blobs may have been put for runs of the judging with ids after
`last`, each of them output that was reported. -/
def Spills (judgingId : Int) (reports : List RunReport) (last : Int)
    (es es' : Entries BlobKey Bytes) : Prop :=
  ∀ key, es'.get? key = es.get? key ∨
    ∃ id kind data, key = .runOutput judgingId id kind ∧ last < id ∧
      es'.get? key = some data ∧ ∃ p ∈ reports, (kind, data) ∈ p.outputs

/-- What a batch has written once it succeeds: each new run has an id that was
free and stands for the first report of its testcase, whose output lies under
that id. -/
structure Writes (judgingId : Int) (reports : List RunReport) (s : Store)
    (es : Entries BlobKey Bytes) (s' : Store) (es' : Entries BlobKey Bytes) : Prop where
  lastRun_le : s.lastRun ≤ s'.lastRun
  blobs : ∀ key, es'.get? key = es.get? key ∨
    ∃ id kind, key = .runOutput judgingId id kind ∧ s.lastRun < id ∧ id ≤ s'.lastRun
  runs : ∀ n ∈ s'.runs, n ∈ s.runs ∨
    s.lastRun < n.id ∧ n.id ≤ s'.lastRun ∧ n.judgingId = judgingId ∧
      ∃ p, reports.find? (fun p => p.testcaseId = n.testcaseId) = some p ∧
        ∀ kind, es'.get? (.runOutput judgingId n.id kind) =
          (p.output? kind).or (es.get? (.runOutput judgingId n.id kind))

/-- A world whose blobs are as they were, but for some output of a batch. -/
def Spilled (judgingId : Int) (reports : List RunReport) (s : Store) (es : Entries BlobKey Bytes)
    (w' : World) : Prop :=
  ∃ es', w'.blobs = .memory es' ∧ Spills judgingId reports s.lastRun es es'

/-- A world in which a batch is recorded. -/
def Recorded (judgingId : Int) (reports : List RunReport) (s : Store) (es : Entries BlobKey Bytes)
    (w' : World) : Prop :=
  ∃ es', w'.blobs = .memory es' ∧ Spills judgingId reports s.lastRun es es' ∧
    Writes judgingId reports s es w'.store es'

variable {judgingId runId last last' : Int} {reports : List RunReport}
variable {outputs : List (RunOutputKind × Bytes)} {es es₁ es' : Entries BlobKey Bytes}

/-! ## Where output may lie -/

/-- What is put under one id does not reach another. -/
theorem Puts.get?_of_ne (h : Puts judgingId runId outputs es es') {j id : Int}
    (hne : id ≠ runId) (kind : RunOutputKind) :
    es'.get? (.runOutput j id kind) = es.get? (.runOutput j id kind) := by
  rcases h (.runOutput j id kind) with hkept | ⟨_, _, hkey, -⟩
  · exact hkept
  · exact absurd (BlobKey.runOutput.inj hkey).2.1 hne

/-- The first entry is put, and then the rest on top. -/
theorem Puts.cons {kind : RunOutputKind} {data : Bytes}
    (h : Puts judgingId runId outputs (es.put (.runOutput judgingId runId kind) data) es') :
    Puts judgingId runId ((kind, data) :: outputs) es es' := by
  intro key
  rcases h key with hsame | ⟨k, d, rfl, hd, hmem⟩
  · rw [Entries.get?_put] at hsame
    by_cases hkey : BlobKey.runOutput judgingId runId kind = key
    · rw [if_pos hkey] at hsame
      exact .inr ⟨kind, data, hkey.symm, hsame, List.mem_cons_self⟩
    · rw [if_neg hkey] at hsame
      exact .inl hsame
  · exact .inr ⟨k, d, rfl, hd, List.mem_cons_of_mem _ hmem⟩

/-- The output of a report that has drawn an id spills. -/
theorem Puts.spills {r : RunReport} (h : Puts judgingId runId r.outputs es es')
    (hlt : last < runId) : Spills judgingId (r :: reports) last es es' := by
  intro key
  rcases h key with hkept | ⟨kind, data, rfl, hdata, hmem⟩
  · exact .inl hkept
  · exact .inr ⟨runId, kind, data, rfl, hlt, hdata, r, List.mem_cons_self, hmem⟩

theorem Spills.refl : Spills judgingId reports last es es :=
  fun _ => .inl rfl

/-- Output that is put later comes on top. -/
theorem Spills.trans (h : Spills judgingId reports last es es₁)
    (h' : Spills judgingId reports last' es₁ es') (hle : last ≤ last') :
    Spills judgingId reports last es es' := by
  intro key
  rcases h' key with hsame | ⟨id, kind, data, rfl, hlt, hdata, hp⟩
  · rw [hsame]
    exact h key
  · exact .inr ⟨id, kind, data, rfl, by omega, hdata, hp⟩

theorem Spills.mono {reports' : List RunReport} (h : Spills judgingId reports last es es')
    (hsub : ∀ p ∈ reports, p ∈ reports') : Spills judgingId reports' last es es' := by
  intro key
  rcases h key with hsame | ⟨id, kind, data, rfl, hlt, hdata, p, hp, hout⟩
  · exact .inl hsame
  · exact .inr ⟨id, kind, data, rfl, hlt, hdata, p, hsub p hp, hout⟩

/-- Nothing spills under ids that were drawn before. -/
theorem Spills.get?_of_le (h : Spills judgingId reports last es es') {j id : Int}
    (hle : id ≤ last) (kind : RunOutputKind) :
    es'.get? (.runOutput j id kind) = es.get? (.runOutput j id kind) := by
  rcases h (.runOutput j id kind) with hsame | ⟨_, _, _, hkey, hlt, -⟩
  · exact hsame
  · have hid := (BlobKey.runOutput.inj hkey).2.1
    omega

/-- Output is written under the ids that the batch draws, and no others. -/
theorem Writes.get?_of_not_drawn {s s' : Store} (h : Writes judgingId reports s es s' es')
    {j id : Int} (hid : id ≤ s.lastRun ∨ s'.lastRun < id) (kind : RunOutputKind) :
    es'.get? (.runOutput j id kind) = es.get? (.runOutput j id kind) := by
  rcases h.blobs (.runOutput j id kind) with hsame | ⟨_, _, hkey, hlt, hle⟩
  · exact hsame
  · have heq := (BlobKey.runOutput.inj hkey).2.1
    omega

/-! ## One report -/

/-- **Putting the output of a run** leaves the last entry of each stream under
its id, and nothing else; if it stops half way, some of the output. -/
theorem leaves_putOutputs {w : World} (hw : w.blobs = .memory es)
    (outputs : List (RunOutputKind × Bytes)) :
    (putOutputs judgingId runId outputs).Leaves w
      (fun _ w' => w'.store = w.store ∧ ∃ es', w'.blobs = .memory es' ∧
        Puts judgingId runId outputs es es' ∧
        ∀ kind, es'.get? (.runOutput judgingId runId kind) =
          (lastOutput outputs kind).or (es.get? (.runOutput judgingId runId kind)))
      fun w' => ∃ es', w'.blobs = .memory es' ∧ Puts judgingId runId outputs es es' := by
  induction outputs generalizing w es with
  | nil => exact ⟨rfl, es, hw, fun _ => .inl rfl, fun _ => rfl⟩
  | cons o rest ih =>
    obtain ⟨kind, data⟩ := o
    rw [putOutputs, leaves_bind]
    refine ⟨⟨es, hw, fun _ => .inl rfl⟩, fun blobs hput => ?_⟩
    rw [hw] at hput
    cases hput
    -- the rest is put over the first entry
    refine (ih (w := { w with
      blobs := .memory (es.put (.runOutput judgingId runId kind) data) }) rfl).mono ?_ ?_
    · rintro _ w' ⟨hstore, es₂, hblobs, hputs, hlast⟩
      refine ⟨hstore, es₂, hblobs, hputs.cons, fun k => ?_⟩
      rw [hlast, Entries.get?_put, lastOutput_cons, Option.or_assoc]
      congr 1
      by_cases hk : kind = k
      · rw [if_pos (congrArg _ hk), if_pos hk]
        rfl
      · rw [if_neg fun heq => hk (BlobKey.runOutput.inj heq).2.2, if_neg hk]
        rfl
    · rintro w' ⟨es₂, hblobs, hputs⟩
      exact ⟨es₂, hblobs, hputs.cons⟩

/-! ## Reports one after another -/

section Record

variable {s s' : Store} {w w₁ w' : World} {r : RunReport} {seen : List Int}

/-- A report that no new run stands for may come first. -/
theorem Writes.skip (h : Writes judgingId reports s es s' es')
    (hne : ∀ n ∈ s'.runs, n ∈ s.runs ∨ n.testcaseId ≠ r.testcaseId) :
    Writes judgingId (r :: reports) s es s' es' := by
  refine ⟨h.lastRun_le, h.blobs, fun n hn => ?_⟩
  rcases hne n hn with hold | hne
  · exact .inl hold
  · rcases h.runs n hn with hold | ⟨hlt, hle, hid, p, hp, hout⟩
    · exact .inl hold
    · refine .inr ⟨hlt, hle, hid, p, ?_, hout⟩
      rw [List.find?_cons, decide_eq_false (Ne.symm hne)]
      exact hp

section Insert

variable {new : NewRun} (htestcase : new.testcaseId = r.testcaseId)
variable (hputs : Puts judgingId (s.lastRun + 1) r.outputs es es₁)
variable (hout : ∀ kind, es₁.get? (.runOutput judgingId (s.lastRun + 1) kind) =
  (r.output? kind).or (es.get? (.runOutput judgingId (s.lastRun + 1) kind)))
variable (h : Writes judgingId reports (s.insertRun new).2 es₁ s' es')

include htestcase hout h in
/-- The run of the first report keeps its output through the rest. -/
theorem Writes.mem_insertRun (hjudging : new.judgingId = judgingId) {n : Run}
    (hn : n ∈ (s.insertRun new).2.runs) : n ∈ s.runs ∨
      s.lastRun < n.id ∧ n.id ≤ s'.lastRun ∧ n.judgingId = judgingId ∧
        ∃ p, (r :: reports).find? (fun p => p.testcaseId = n.testcaseId) = some p ∧
          ∀ kind, es'.get? (.runOutput judgingId n.id kind) =
            (p.output? kind).or (es.get? (.runOutput judgingId n.id kind)) := by
  have hle : s.lastRun + 1 ≤ s'.lastRun := h.lastRun_le
  have hn : n ∈ s.runs.insert (new.recorded (s.lastRun + 1)) := hn
  rcases Table.mem_insert.mp hn with rfl | ⟨hold, -⟩
  · have hid : (new.recorded (s.lastRun + 1)).id = s.lastRun + 1 := rfl
    have hfirst : r.testcaseId = (new.recorded (s.lastRun + 1)).testcaseId := htestcase.symm
    refine .inr ⟨by omega, by omega, hjudging, r, ?_, fun kind => ?_⟩
    · rw [List.find?_cons, decide_eq_true hfirst]
    · -- the rest draws later ids only
      rw [hid, ← hout kind]
      exact h.get?_of_not_drawn (.inl (Int.le_refl _)) kind
  · exact .inl hold

include htestcase hputs hout h in
/-- **A run that is recorded** stands for its report, and what is written after
it does not reach its output. -/
theorem Writes.record (hjudging : new.judgingId = judgingId)
    (hne : ∀ n ∈ s'.runs, n ∈ (s.insertRun new).2.runs ∨ n.testcaseId ≠ r.testcaseId) :
    Writes judgingId (r :: reports) s es s' es' := by
  have hle : s.lastRun + 1 ≤ s'.lastRun := h.lastRun_le
  refine ⟨by omega, fun key => ?_, fun n hn => ?_⟩
  · -- it is written under the first id, or under those that the rest draws
    rcases h.blobs key with hsame | ⟨id, kind, rfl, hlt, hid⟩
    · rcases hputs key with hkept | ⟨kind, data, rfl, -⟩
      · exact .inl (hsame.trans hkept)
      · exact .inr ⟨s.lastRun + 1, kind, rfl, by omega, hle⟩
    · have hlt : s.lastRun + 1 < id := hlt
      exact .inr ⟨id, kind, rfl, by omega, hid⟩
  · rcases hne n hn with hold | hne
    · exact h.mem_insertRun htestcase hout hjudging hold
    · rcases h.runs n hn with hold | ⟨hlt, hid, hjud, p, hp, hlast⟩
      · exact h.mem_insertRun htestcase hout hjudging hold
      · have hlt : s.lastRun + 1 < n.id := hlt
        refine .inr ⟨by omega, hid, hjud, p, ?_, fun kind => ?_⟩
        · rw [List.find?_cons, decide_eq_false (Ne.symm hne)]
          exact hp
        · rw [hlast kind, hputs.get?_of_ne (by omega)]

end Insert

theorem Recorded.spilled (h : Recorded judgingId reports s es w') :
    Spilled judgingId reports s es w' := by
  obtain ⟨es', hblobs, hspill, -⟩ := h
  exact ⟨es', hblobs, hspill⟩

/-- What spills of the rest spills of the batch. -/
theorem Spilled.cons (h : Spilled judgingId reports s es w') (r : RunReport) :
    Spilled judgingId (r :: reports) s es w' := by
  obtain ⟨es', hblobs, hspill⟩ := h
  exact ⟨es', hblobs, hspill.mono fun _ hp => List.mem_cons_of_mem _ hp⟩

/-- A report of a testcase that has been seen is skipped, and no run stands for
it. -/
theorem Recorded.skip (h : Recorded judgingId reports s es w')
    (hnew : ∀ n ∈ w'.store.runs, n ∈ s.runs ∨ n.testcaseId ∉ seen)
    (hseen : r.testcaseId ∈ seen) : Recorded judgingId (r :: reports) s es w' := by
  obtain ⟨es', hblobs, hspill, hwrites⟩ := h
  have hne : ∀ n ∈ w'.store.runs, n ∈ s.runs ∨ n.testcaseId ≠ r.testcaseId := by
    intro n hn
    exact (hnew n hn).imp_right fun hnot heq => hnot (heq ▸ hseen)
  exact ⟨es', hblobs, hspill.mono fun _ hp => List.mem_cons_of_mem _ hp, hwrites.skip hne⟩

section First

variable {now : Instant} (hblobs₁ : w₁.blobs = .memory es₁)
variable (hstore : w₁.store = (s.insertRun (RunReport.toRun r judgingId now)).2)
variable (hputs : Puts judgingId (s.lastRun + 1) r.outputs es es₁)

include hblobs₁ hputs in
/-- The output of the first report has been put. -/
theorem spilled_of_puts : Spilled judgingId (r :: reports) s es w₁ :=
  ⟨es₁, hblobs₁, hputs.spills (by omega)⟩

include hstore hputs in
/-- What spills after the first report spills over its output. -/
theorem Spilled.record (h : Spilled judgingId reports w₁.store es₁ w') :
    Spilled judgingId (r :: reports) s es w' := by
  obtain ⟨es', hblobs, hspill⟩ := h.cons r
  have hdrawn : s.lastRun < s.lastRun + 1 := by omega
  rw [hstore] at hspill
  exact ⟨es', hblobs, (hputs.spills hdrawn).trans hspill (Int.le_of_lt hdrawn)⟩

include hstore hputs in
/-- A report of a testcase that has not been seen is recorded before the
rest. -/
theorem Recorded.record (hout : ∀ kind, es₁.get? (.runOutput judgingId (s.lastRun + 1) kind) =
      (r.output? kind).or (es.get? (.runOutput judgingId (s.lastRun + 1) kind)))
    (h : Recorded judgingId reports w₁.store es₁ w')
    (hnew : ∀ n ∈ w'.store.runs, n ∈ w₁.store.runs ∨ n.testcaseId ∉ r.testcaseId :: seen) :
    Recorded judgingId (r :: reports) s es w' := by
  obtain ⟨es', hblobs, hspill⟩ := h.spilled.record hstore hputs
  obtain ⟨es₂, hblobs₂, -, hwrites⟩ := h
  cases hblobs.symm.trans hblobs₂
  rw [hstore] at hwrites hnew
  have hne : ∀ n ∈ w'.store.runs, n ∈ (s.insertRun (RunReport.toRun r judgingId now)).2.runs ∨
      n.testcaseId ≠ r.testcaseId := by
    intro n hn
    exact (hnew n hn).imp_right fun hnot heq => hnot (heq ▸ List.mem_cons_self)
  exact ⟨es', hblobs, hspill, hwrites.record rfl hputs hout rfl hne⟩

include hstore in
/-- Neither it nor the runs of the rest are of testcases that have been seen. -/
theorem not_mem_seen_of_record (hseen : r.testcaseId ∉ seen)
    (hnew : ∀ n ∈ w'.store.runs, n ∈ w₁.store.runs ∨ n.testcaseId ∉ r.testcaseId :: seen) :
    ∀ n ∈ w'.store.runs, n ∈ s.runs ∨ n.testcaseId ∉ seen := by
  rw [hstore] at hnew
  intro n hn
  rcases hnew n hn with hold | hnot
  · rcases Table.mem_insert.mp hold with rfl | ⟨hold, -⟩
    · exact .inr hseen
    · exact .inl hold
  · exact .inr fun hmem => hnot (List.mem_cons_of_mem _ hmem)

end First

/-- **Recording reports** writes those of testcases that have not been seen;
if it stops half way, it spills some of their output. -/
theorem leaves_recordRuns (hw : w.blobs = .memory es) (problemId : Int) (testcases : List Testcase)
    (now : Instant) (seen : List Int) (reports : List RunReport) :
    (recordRuns judgingId problemId testcases now seen reports).Leaves w
      (fun _ w' => Recorded judgingId reports w.store es w' ∧
        ∀ n ∈ w'.store.runs, n ∈ w.store.runs ∨ n.testcaseId ∉ seen)
      (Spilled judgingId reports w.store es) := by
  induction reports generalizing w es seen with
  | nil =>
    have hwrites : Writes judgingId [] w.store es w.store es :=
      ⟨Int.le_refl _, fun _ => .inl rfl, fun _ hn => .inl hn⟩
    exact ⟨⟨es, hw, .refl, hwrites⟩, fun _ hn => .inl hn⟩
  | cons r rest ih =>
    rw [recordRuns, leaves_bind]
    refine leaves_unlessError ⟨es, hw, .refl⟩ fun _ => ?_
    by_cases hseen : seen.contains r.testcaseId = true
    · rw [if_pos hseen]
      have hmem : r.testcaseId ∈ seen := by simpa using hseen
      refine (ih hw seen).mono ?_ fun w' hspilled => hspilled.cons r
      rintro _ w' ⟨hrecorded, hnew⟩
      exact ⟨hrecorded.skip hnew hmem, hnew⟩
    · rw [if_neg hseen, leaves_bind]
      have hnot : r.testcaseId ∉ seen := by simpa using hseen
      refine ⟨⟨es, hw, .refl⟩, fun run store hrun => ?_⟩
      cases hrun
      -- its output is put, and then the rest is recorded
      let recorded : World :=
        { w with store := (w.store.insertRun (RunReport.toRun r judgingId now)).2 }
      refine leaves_bind.mpr ((leaves_putOutputs (w := recorded) hw r.outputs).mono ?_ ?_)
      · rintro _ w₁ ⟨hstore, es₁, hblobs₁, hputs, hout⟩
        rw [leaves_bind]
        refine (ih hblobs₁ (r.testcaseId :: seen)).mono ?_ ?_
        · rintro _ w' ⟨hrecorded, hnew⟩
          exact ⟨hrecorded.record hstore hputs hout hnew,
            not_mem_seen_of_record hstore hnot hnew⟩
        · exact fun w' hspilled => hspilled.record hstore hputs
      · rintro w₁ ⟨es₁, hblobs₁, hputs⟩
        exact spilled_of_puts hblobs₁ hputs

end Record

end Grading

end JudgeQueue
