import JudgeQueue.Proofs.Change.Basic
/-!
# Transactions — effects read off the text

Most of what a program may do shows in its text, without regard to what its
queries answer: whether it hands judgings out, records runs, removes rows or
puts blobs. A program stays within some effects if no step of it has another
one. What no step does the program does not do, whatever its answers are and
wherever it stops.
-/

namespace JudgeQueue

/-- What a step may do besides reading rows, adding judgings and changing rows
where they stand. -/
inductive Effect
  /-- A judging is handed out. -/
  | handsOut
  /-- A run is recorded. -/
  | records
  /-- Judgings or runs are removed. -/
  | removes
  /-- A blob is put. -/
  | puts
deriving DecidableEq

/-- The effect of a query. -/
def Query.effect? {α : Type} : Query α → Option Effect
  | .claimNextJudging .. => some .handsOut
  | .insertRun _ => some .records
  | .deleteTestcase _ => some .removes
  | .deleteJudgings _ => some .removes
  | _ => none

/-- The effect that an event tells of. -/
def Event.effect? : Event → Option Effect
  | .judgingBegun .. => some .handsOut
  | _ => none

namespace Store

/-- No run is recorded on the way to a store, though some may be removed. -/
structure KeepsRuns (s s' : Store) : Prop where
  lastRun : s'.lastRun = s.lastRun
  runs : ∀ n ∈ s'.runs, n ∈ s.runs

variable {s s₁ s' : Store}

@[refl] theorem KeepsRuns.refl (s : Store) : s.KeepsRuns s :=
  ⟨rfl, fun _ hn => hn⟩

theorem KeepsRuns.trans (h : s.KeepsRuns s₁) (h' : s₁.KeepsRuns s') : s.KeepsRuns s' :=
  ⟨h'.lastRun.trans h.lastRun, fun n hn => h.runs n (h'.runs n hn)⟩

/-- What leaves the table of runs and its sequence alone keeps the runs. -/
theorem KeepsRuns.of_eq (hlast : s'.lastRun = s.lastRun) (hruns : s'.runs = s.runs) :
    s.KeepsRuns s' :=
  ⟨hlast, fun _ hn => hruns ▸ hn⟩

/-- So does what removes some. -/
theorem KeepsRuns.of_keep {p : Run → Bool} (hlast : s'.lastRun = s.lastRun)
    (hruns : s'.runs = s.runs.keep p) : s.KeepsRuns s' := by
  refine ⟨hlast, fun n hn => ?_⟩
  rw [hruns, Table.mem_keep] at hn
  exact hn.1

/-- Every judging and every run is still there under its id. -/
structure KeepsRows (s s' : Store) : Prop where
  judgings : ∀ j ∈ s.judgings, ∃ j' ∈ s'.judgings, j'.id = j.id
  runs : ∀ n ∈ s.runs, ∃ n' ∈ s'.runs, n'.id = n.id

theorem KeepsRows.refl (s : Store) : s.KeepsRows s :=
  ⟨fun j hj => ⟨j, hj, rfl⟩, fun n hn => ⟨n, hn, rfl⟩⟩

theorem KeepsRows.trans (h : s.KeepsRows s₁) (h' : s₁.KeepsRows s') : s.KeepsRows s' where
  judgings j hj := by
    obtain ⟨j₁, hj₁, hid⟩ := h.judgings j hj
    obtain ⟨j', hj', hid'⟩ := h'.judgings j₁ hj₁
    exact ⟨j', hj', hid'.trans hid⟩
  runs n hn := by
    obtain ⟨n₁, hn₁, hid⟩ := h.runs n hn
    obtain ⟨n', hn', hid'⟩ := h'.runs n₁ hn₁
    exact ⟨n', hn', hid'.trans hid⟩

/-- What leaves both tables alone keeps their rows. -/
theorem KeepsRows.of_eq (hjud : s'.judgings = s.judgings) (hruns : s'.runs = s.runs) :
    s.KeepsRows s' :=
  ⟨fun j hj => ⟨j, hjud ▸ hj, rfl⟩, fun n hn => ⟨n, hruns ▸ hn, rfl⟩⟩

/-- So does what changes judgings where they stand. -/
theorem KeepsRows.of_map {f : Judging → Judging}
    (hjud : s'.judgings.rows = s.judgings.rows.map f) (hruns : s'.runs = s.runs)
    (hf : ∀ j, (f j).id = j.id) : s.KeepsRows s' := by
  refine ⟨fun j hj => ⟨f j, ?_, hf j⟩, fun n hn => ⟨n, hruns ▸ hn, rfl⟩⟩
  rw [← Table.mem_rows, hjud]
  exact List.mem_map_of_mem hj

/-- And what adds rows. -/
theorem KeepsRows.of_insert {j : Judging} (hjud : s'.judgings = s.judgings.insert j)
    (hruns : s'.runs = s.runs) : s.KeepsRows s' := by
  refine ⟨fun i hi => ?_, fun n hn => ⟨n, hruns ▸ hn, rfl⟩⟩
  rw [hjud]
  by_cases hid : key i = key j
  · exact ⟨j, Table.mem_insert.mpr (.inl rfl), hid.symm⟩
  · exact ⟨i, Table.mem_insert.mpr (.inr ⟨hi, hid⟩), rfl⟩

theorem KeepsRows.of_insertRun {n : Run} (hjud : s'.judgings = s.judgings)
    (hruns : s'.runs = s.runs.insert n) : s.KeepsRows s' := by
  refine ⟨fun j hj => ⟨j, hjud ▸ hj, rfl⟩, fun m hm => ?_⟩
  rw [hruns]
  by_cases hid : key m = key n
  · exact ⟨n, Table.mem_insert.mpr (.inl rfl), hid.symm⟩
  · exact ⟨m, Table.mem_insert.mpr (.inr ⟨hm, hid⟩), rfl⟩

end Store

/-- **Any other query** leaves the runs as they are and keeps the judgings. -/
theorem Query.runs_eq_of_run {α : Type} {q : Query α} (hrecords : q.effect? ≠ some .records)
    (hremoves : q.effect? ≠ some .removes) {s s' : Store} {a : α} (h : q.run s = .ok (a, s')) :
    s'.lastRun = s.lastRun ∧ s'.runs = s.runs ∧ s.KeepsRows s' := by
  cases q with
  | insertRun => exact absurd rfl hrecords
  | deleteTestcase => exact absurd rfl hremoves
  | deleteJudgings => exact absurd rfl hremoves
  | insertJudging new =>
    rw [run, Store.insertJudging] at h
    split at h
    · cases h
      exact ⟨rfl, rfl, .of_insert rfl rfl⟩
    · cases h
  | updateJudging j =>
    rw [run, Store.updateJudging] at h
    split at h
    · cases h
      exact ⟨rfl, rfl, .of_map rfl rfl fun _ => by split <;> rfl⟩
    · cases h
  | updateJudgings f p =>
    cases h
    exact ⟨rfl, rfl, .of_map rfl rfl fun _ => by split <;> rfl⟩
  | setJudgingsCounted =>
    cases h
    exact ⟨rfl, rfl, .of_map rfl rfl fun _ => by split <;> rfl⟩
  | appendRunVerdicts id text =>
    rw [run, Store.appendRunVerdicts] at h
    split at h
    · cases h
      exact ⟨rfl, rfl, .of_map rfl rfl fun _ => by split <;> rfl⟩
    · cases h
  | claimNextJudging hostname now =>
    rw [run, Store.claimNextJudging] at h
    split at h
    · cases h
      exact ⟨rfl, rfl, .refl s⟩
    · cases h
      exact ⟨rfl, rfl, .of_map rfl rfl fun _ => by split <;> rfl⟩
  | insertJudgehost hostname now =>
    rw [run, Store.insertJudgehost] at h
    split at h
    · cases h
    · cases h
      exact ⟨rfl, rfl, .of_eq rfl rfl⟩
  | updateRejudging r =>
    rw [run, Store.updateRejudging] at h
    split at h
    · cases h
    · split at h
      · cases h
      · cases h
        exact ⟨rfl, rfl, .of_eq rfl rfl⟩
  | updateInternalErrorStatus id status =>
    rw [run, Store.updateInternalErrorStatus] at h
    split at h
    · cases h
    · split at h
      · cases h
        exact ⟨rfl, rfl, .of_eq rfl rfl⟩
      · cases h
  | _ =>
    cases h
    exact ⟨rfl, rfl, .of_eq rfl rfl⟩

/-- A query that records no run keeps the runs. -/
theorem Query.keepsRuns_run {α : Type} {q : Query α} (hrecords : q.effect? ≠ some .records)
    {s s' : Store} {a : α} (h : q.run s = .ok (a, s')) : s.KeepsRuns s' := by
  by_cases hremoves : q.effect? = some .removes
  · cases q with
    | deleteTestcase | deleteJudgings =>
      cases h
      exact .of_keep rfl rfl
    | _ => cases hremoves
  · obtain ⟨hlast, hruns, -⟩ := Query.runs_eq_of_run hrecords hremoves h
    exact .of_eq hlast hruns

/-- A query that removes nothing keeps the rows. -/
theorem Query.keepsRows_run {α : Type} {q : Query α} (hremoves : q.effect? ≠ some .removes)
    {s s' : Store} {a : α} (h : q.run s = .ok (a, s')) : s.KeepsRows s' := by
  by_cases hrecords : q.effect? = some .records
  · cases q with
    | insertRun =>
      cases h
      exact .of_insertRun rfl rfl
    | _ => cases hrecords
  · exact (Query.runs_eq_of_run hrecords hremoves h).2.2

namespace Transaction

variable {α β : Type} {E : List Effect} {P Q : α → Prop} {w w' : World}

/-- No step of the program has another effect, and its answer, if it comes to
one, meets a condition. -/
def Within (E : List Effect) : Transaction α → (α → Prop) → Prop
  | done a, Q => Q a
  | fail _, _ => True
  | query q next, Q => (∀ e, q.effect? = some e → e ∈ E) ∧ ∀ b, (next b).Within E Q
  | put _ _ next, Q => .puts ∈ E ∧ next.Within E Q

/-- No step of the program has another effect. -/
def Asks (E : List Effect) (x : Transaction α) : Prop :=
  x.Within E fun _ => True

/-- The events of an ending, if it is a commit, tell of no other effect. -/
def Ending.Minds (E : List Effect) : Ending α → Prop
  | .commit _ es => ∀ event ∈ es, ∀ e, event.effect? = some e → e ∈ E
  | .rollback _ => True

/-- No step of the body and none of its events has another effect. -/
def Minds (E : List Effect) (body : Transaction (Ending α)) : Prop :=
  body.Within E (Ending.Minds E)

/-! ## Which programs stay within effects -/

theorem Within.mono {x : Transaction α} (h : x.Within E P) (hQ : ∀ a, P a → Q a) :
    x.Within E Q := by
  induction x with
  | done a => exact hQ a h
  | fail e => trivial
  | query q next ih => exact ⟨h.1, fun b => ih b (h.2 b)⟩
  | put key data next ih => exact ⟨h.1, ih h.2⟩

/-- **The rule of sequence.** -/
theorem Within.bind {x : Transaction α} {f : α → Transaction β} {R : β → Prop}
    (hx : x.Within E P) (hf : ∀ a, P a → (f a).Within E R) : (x >>= f).Within E R := by
  change (x.bind f).Within E R
  induction x with
  | done a => exact hf a hx
  | fail e => trivial
  | query q next ih => exact ⟨hx.1, fun b => ih b (hx.2 b)⟩
  | put key data next ih => exact ⟨hx.1, ih hx.2⟩

theorem Asks.bind {x : Transaction α} {f : α → Transaction β} {R : β → Prop} (hx : x.Asks E)
    (hf : ∀ a, (f a).Within E R) : (x >>= f).Within E R :=
  Within.bind hx fun a _ => hf a

theorem Asks.map {x : Transaction α} (hx : x.Asks E) (f : α → β) : (f <$> x).Asks E := by
  rw [map_eq_pure_bind]
  exact hx.bind fun _ => trivial

theorem asks_pure (a : α) : (pure a : Transaction α).Asks E := trivial

/-- A query with no effect of its own. -/
theorem asks_ask {q : Query α} (h : q.effect? = none) : (ask q).Asks E := by
  refine ⟨fun e he => ?_, fun _ => trivial⟩
  rw [h] at he
  cases he

/-- A query with an effect that is allowed. -/
theorem asks_ask_effect {q : Query α} {e : Effect} (h : q.effect? = some e) (he : e ∈ E) :
    (ask q).Asks E := by
  refine ⟨fun e' he' => ?_, fun _ => trivial⟩
  rw [h, Option.some.injEq] at he'
  rwa [← he']

theorem asks_need (e : Error) (o : Option α) : (need e o).Asks E := by
  cases o <;> trivial

theorem asks_unlessError (c : Bool) (e : Error) : (unlessError c e).Asks E := by
  cases c <;> trivial

theorem asks_putBlob (h : .puts ∈ E) (key : BlobKey) (data : Bytes) : (putBlob key data).Asks E :=
  ⟨h, trivial⟩

theorem minds_fail (e : Error) : (fail e : Transaction (Ending α)).Minds E := trivial

theorem minds_commit {a : α} {es : List Event} (h : ∀ event ∈ es, event.effect? = none) :
    (commit a es).Minds E := by
  intro event hevent e he
  rw [h event hevent] at he
  cases he

/-- Nothing is published. -/
theorem minds_silent (a : α) : (commit a []).Minds E :=
  minds_commit fun _ hevent => absurd hevent List.not_mem_nil

theorem minds_rollback (a : α) : (rollback a).Minds E := trivial

/-! ## What programs within effects leave -/

/-- **What every step within the effects keeps, the program keeps**, and it
answers as it promises, whichever steps fail. -/
theorem Within.exec {x : Transaction α} (h : x.Within E Q) {R : Store → Store → Prop}
    (hrefl : ∀ s, R s s) (htrans : ∀ {s s₁ s'}, R s s₁ → R s₁ s' → R s s')
    (hstep : ∀ {β : Type} {q : Query β} {s s' : Store} {b : β},
      (∀ e, q.effect? = some e → e ∈ E) → q.run s = .ok (b, s') → R s s')
    {faults : Faults} {n m : Nat} {a : α} (hx : x.exec faults n w = (.ok (a, m), w')) :
    Q a ∧ R w.store w'.store := by
  induction x generalizing n w with
  | done b =>
    cases hx
    exact ⟨h, hrefl _⟩
  | fail e => cases hx
  | query q next ih =>
    simp only [Transaction.exec] at hx
    split at hx
    · cases hx
    · split at hx
      · next b store hq =>
        obtain ⟨hanswer, hrest⟩ := ih b (h.2 b) hx
        exact ⟨hanswer, htrans (hstep h.1 hq) hrest⟩
      · cases hx
  | put key data next ih =>
    simp only [Transaction.exec] at hx
    split at hx
    · cases hx
    · split at hx
      · have hnext := ih h.2 hx
        exact hnext
      · cases hx

end Transaction

open Transaction

variable {α : Type} {E : List Effect} {Q : Ending α → Prop} {body : Transaction (Ending α)}

/-- **What becomes of a request** whose body stays within some effects. Either
it is kept, with the events that its body has promised, or it leaves the store
as it was and publishes nothing, and its answer, if it is answered, is one that
its body has promised for that. -/
theorem transact_within (h : body.Within E Q) (ctx : Context) (w : World) :
    (∃ a, (transact ctx w body).answer = .ok a ∧ Q (.commit a (transact ctx w body).events)) ∨
      (transact ctx w body).world.store = w.store ∧ (transact ctx w body).events = [] ∧
        ∀ a, (transact ctx w body).answer = .ok a → Q (.rollback a) := by
  have hanswer : ∀ {ending : Ending α} {n : Nat} {w' : World},
      body.exec ctx.faults 0 w = (.ok (ending, n), w') → Q ending := fun hx =>
    (h.exec (R := fun _ _ => True) (fun _ => trivial) (fun _ _ => trivial) (fun _ _ => trivial)
      hx).1
  unfold transact
  split
  · next a es n w' hx =>
    split
    · exact .inl ⟨a, rfl, hanswer hx⟩
    · exact .inr ⟨rfl, rfl, fun _ heq => by cases heq⟩
  · next a n w' hx =>
    refine .inr ⟨rfl, rfl, fun b heq => ?_⟩
    cases heq
    exact hanswer hx
  · exact .inr ⟨rfl, rfl, fun _ heq => by cases heq⟩

/-- **A request that removes nothing** keeps the rows, whichever steps fail. -/
theorem transact_keepsRows (h : body.Within E Q) (hremoves : .removes ∉ E) (ctx : Context)
    (w : World) : w.store.KeepsRows (transact ctx w body).world.store := by
  unfold transact
  split
  · next hx =>
    obtain ⟨-, hrows⟩ := h.exec Store.KeepsRows.refl Store.KeepsRows.trans
      (fun hq => Query.keepsRows_run fun heq => hremoves (hq .removes heq)) hx
    split
    · exact hrows
    · exact .refl _
  · exact .refl _
  · exact .refl _

end JudgeQueue
