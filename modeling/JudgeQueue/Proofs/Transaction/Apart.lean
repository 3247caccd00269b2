import JudgeQueue.Proofs.Transaction.Ensures
import JudgeQueue.Proofs.Transaction.Run
/-!
# Transactions — apart from the statistics

Most programs neither read nor write the statistics. Such a program runs alike
whatever the statistics are, and leaves them as they are, so it does not matter
whether deltas are merged before it or after it.
-/

namespace JudgeQueue

/-- Whether a query is about other rows than those of the statistics. -/
def Query.isApart {α : Type} : Query α → Bool
  | .mergeStatistics _ | .findStatistics _ | .replaceStatistics .. => false
  | _ => true

/-- The store with other statistics. -/
def Store.withStatistics (s : Store) (t : Table StatisticsRow) : Store :=
  { s with statistics := t }

/-- The world with other statistics. -/
def World.withStatistics (w : World) (t : Table StatisticsRow) : World :=
  { w with store := w.store.withStatistics t }

theorem World.withStatistics_self (w : World) : w.withStatistics w.store.statistics = w := rfl

/-- **A query that is apart** comes to the same with other statistics. -/
theorem Query.run_withStatistics {α : Type} {q : Query α} (h : q.isApart = true) (s : Store)
    (t : Table StatisticsRow) :
    q.run (s.withStatistics t) = (q.run s).map fun r => (r.1, r.2.withStatistics t) := by
  cases q with
  | mergeStatistics | findStatistics | replaceStatistics => cases h
  | insertJudgehost hostname now =>
    by_cases hc : s.judgehosts.contains hostname = true <;>
      simp only [run, Store.insertJudgehost, Store.withStatistics, hc] <;> rfl
  | insertJudging new =>
    by_cases hc : s.submissions.contains new.submissionId = true <;>
      simp only [run, Store.insertJudging, Store.withStatistics, hc] <;> rfl
  | updateJudging j =>
    by_cases hc : s.judgings.contains j.id = true <;>
      simp only [run, Store.updateJudging, Store.withStatistics, hc] <;> rfl
  | appendRunVerdicts id text =>
    by_cases hc : s.judgings.contains id = true <;>
      simp only [run, Store.appendRunVerdicts, Store.withStatistics, hc] <;> rfl
  | claimNextJudging hostname now =>
    have hnext : (s.withStatistics t).nextDispatchable = s.nextDispatchable := rfl
    cases hfound : s.nextDispatchable <;>
      simp only [run, Store.claimNextJudging, hnext, hfound] <;> rfl
  | updateRejudging r =>
    cases hfound : s.rejudgings.find? r.id with
    | none =>
      simp only [run, Store.updateRejudging, Store.withStatistics, hfound]
      rfl
    | some stored =>
      by_cases hc : stored.applied.isSome = true <;>
        simp only [run, Store.updateRejudging, Store.withStatistics, hfound, hc] <;> rfl
  | updateInternalErrorStatus id status =>
    cases hfound : s.internalErrors.find? id with
    | none =>
      simp only [run, Store.updateInternalErrorStatus, Store.withStatistics, hfound]
      rfl
    | some stored =>
      by_cases hc : stored.status = .opened <;>
        simp only [run, Store.updateInternalErrorStatus, Store.withStatistics, hfound, hc] <;> rfl
  | _ => rfl

namespace Transaction

variable {α β : Type}

/-- No step of the program is about the statistics. -/
def IsApart : Transaction α → Prop
  | done _ => True
  | fail _ => True
  | query q next => q.isApart = true ∧ ∀ b, (next b).IsApart
  | put _ _ next => next.IsApart

/-- **The rule of sequence.** -/
theorem IsApart.bind {x : Transaction α} {f : α → Transaction β} (hx : x.IsApart)
    (hf : ∀ a, (f a).IsApart) : (x >>= f).IsApart := by
  change (x.bind f).IsApart
  induction x with
  | done a => exact hf a
  | fail e => trivial
  | query q next ih => exact ⟨hx.1, fun b => ih b (hx.2 b)⟩
  | put key data next ih => exact ih hx

theorem isApart_pure (a : α) : (pure a : Transaction α).IsApart := trivial

theorem isApart_ask {q : Query α} (h : q.isApart = true) : (ask q).IsApart :=
  ⟨h, fun _ => trivial⟩

/-- **A program that is apart** runs alike with other statistics. -/
theorem IsApart.run_withStatistics {x : Transaction α} (h : x.IsApart) (w : World)
    (t : Table StatisticsRow) :
    x.run (w.withStatistics t) = ((x.run w).1, (x.run w).2.withStatistics t) := by
  induction x generalizing w with
  | done a => rfl
  | fail e => rfl
  | query q next ih =>
    have hq := Query.run_withStatistics h.1 w.store t
    have hstore : (w.withStatistics t).store = w.store.withStatistics t := rfl
    simp only [run, hstore, hq]
    cases q.run w.store with
    | error e => rfl
    | ok r => exact ih r.1 (h.2 r.1) { w with store := r.2 }
  | put key data next ih =>
    have hblobs : (w.withStatistics t).blobs = w.blobs := rfl
    simp only [run, hblobs]
    cases w.blobs.put key data with
    | error e => rfl
    | ok blobs => exact ih h { w with blobs }

/-- It leaves the statistics as they are. -/
theorem IsApart.statistics_run {x : Transaction α} (h : x.IsApart) (w : World) :
    (x.run w).2.store.statistics = w.store.statistics := by
  have hsame := h.run_withStatistics w w.store.statistics
  rw [w.withStatistics_self] at hsame
  rw [hsame]
  rfl

/-- **Merging deltas first** makes no difference to a program that is apart, nor
does the program to them. -/
theorem IsApart.run_of_merged {x : Transaction α} (h : x.IsApart) {w w' : World}
    {ds : List StatisticsDelta} {r : Except Error α}
    (hx : x.run { w with store := w.store.mergeStatistics ds } = (r, w')) :
    x.run w = (r, w'.withStatistics w.store.statistics) ∧
      w'.store.statistics = ds.foldl Table.count w.store.statistics := by
  have hkept := h.statistics_run { w with store := w.store.mergeStatistics ds }
  have hsame := h.run_withStatistics { w with store := w.store.mergeStatistics ds }
    w.store.statistics
  rw [hx] at hkept hsame
  exact ⟨hsame, hkept⟩

/-- What a program ensures holds of its run. -/
theorem Ensures.run {x : Transaction α} {Q : α → Store → Prop} {w w' : World} {a : α}
    (h : x.Ensures w.store Q) (hx : x.run w = (.ok a, w')) : Q a w'.store := by
  induction x generalizing w with
  | done b =>
    cases hx
    exact h
  | fail e => cases hx
  | query q next ih =>
    simp only [Transaction.run] at hx
    split at hx
    · next b store hq => exact ih b (h b store hq) hx
    · cases hx
  | put key data next ih =>
    simp only [Transaction.run] at hx
    split at hx
    · next blobs hput =>
      have hnext : next.Ensures ({ w with blobs } : World).store Q := h
      exact ih hnext hx
    · cases hx

end Transaction

end JudgeQueue
