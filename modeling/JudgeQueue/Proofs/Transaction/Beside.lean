import JudgeQueue.Proofs.Transaction.Ensures
/-!
# Transactions — programs beside a change

A program runs beside a change of the store if each of its queries answers the
same whether the change has been made or not, and the change may be made after
the query as well as before it. Then all that goes for the program as a whole,
and for the request that it is the body of. Such a program puts no blobs.
-/

namespace JudgeQueue

/-- The query answers the same before and after a change, which may be made after
the query too. -/
def Query.Beside {α : Type} (q : Query α) (δ : Store → Store) (s : Store) : Prop :=
  q.run (δ s) = (q.run s).map fun r => (r.1, δ r.2)

namespace Transaction

variable {α β : Type} {δ : Store → Store} {s : Store} {w : World}

/-- All queries of a program run beside a change. -/
def Beside : Transaction α → (Store → Store) → Store → Prop
  | done _, _, _ => True
  | fail _, _, _ => True
  | query q next, δ, s => q.Beside δ s ∧ ∀ b s', q.run s = .ok (b, s') → (next b).Beside δ s'
  | put _ _ _, _, _ => False

/-! ## Rules -/

/-- **The rule of sequence.** What follows runs beside the change from wherever
the first program has got to. -/
theorem beside_bind {x : Transaction α} {f : α → Transaction β} (hx : x.Beside δ s)
    (hf : x.Ensures s fun a s' => (f a).Beside δ s') : (x >>= f).Beside δ s := by
  change (x.bind f).Beside δ s
  induction x generalizing s with
  | done a => exact hf
  | fail e => trivial
  | query q next ih => exact ⟨hx.1, fun b s' hq => ih b (hx.2 b s' hq) (hf b s' hq)⟩
  | put key data next ih => exact hx.elim

/-- What runs beside a change from everywhere follows anything that does so. -/
theorem beside_bind_of_forall {x : Transaction α} {f : α → Transaction β} (hx : x.Beside δ s)
    (hf : ∀ a s', (f a).Beside δ s') : (x >>= f).Beside δ s :=
  beside_bind hx ((ensures_true x s).mono fun a s' _ => hf a s')

theorem beside_pure (a : α) : (pure a : Transaction α).Beside δ s :=
  trivial

theorem beside_commit (a : α) (es : List Event) : (commit a es).Beside δ s :=
  trivial

theorem beside_need (e : Error) (o : Option α) : (need e o).Beside δ s := by
  cases o <;> trivial

theorem beside_ask {q : Query α} (h : q.Beside δ s) : (ask q).Beside δ s :=
  ⟨h, fun _ _ _ => trivial⟩

/-- A query that only reads runs beside a change of what it does not read. -/
theorem beside_read {q : Query α} (f : Store → α) (hq : ∀ s, q.run s = .ok (f s, s))
    (h : f (δ s) = f s) : (ask q).Beside δ s := by
  refine beside_ask ?_
  rw [Query.Beside, hq, hq, h]
  rfl

/-- A query that writes runs beside a change of what it does not write. -/
theorem beside_write {q : Query α} (f : Store → α) (F : Store → Store)
    (hq : ∀ s, q.run s = .ok (f s, F s)) (hread : f (δ s) = f s) (hwrite : F (δ s) = δ (F s)) :
    (ask q).Beside δ s := by
  refine beside_ask ?_
  rw [Query.Beside, hq, hq, hread, hwrite]
  rfl

/-! ## From the queries to the request -/

/-- **A program beside a change** answers the same before and after it, and the
change may be made after the program, whichever steps fail. -/
theorem Beside.exec {x : Transaction α} (h : x.Beside δ w.store) (faults : Faults) (n : Nat)
    (b : Blobs) :
    x.exec faults n ⟨δ w.store, b⟩ =
      ((x.exec faults n w).1, ⟨δ (x.exec faults n w).2.store, b⟩) := by
  induction x generalizing n w with
  | done a => rfl
  | fail e => rfl
  | query q next ih =>
    obtain ⟨hq, hnext⟩ := h
    rw [Query.Beside] at hq
    simp only [Transaction.exec]
    cases faults.onQuery n q with
    | some e => rfl
    | none =>
      simp only [hq]
      cases hrun : q.run w.store with
      | error e => rfl
      | ok r => exact ih r.1 (w := { w with store := r.2 }) (hnext r.1 r.2 hrun) (n + 1)
  | put key data next ih => exact h.elim

end Transaction

open Transaction

/-- **So does a request**, whose changes are dropped or kept on either side. -/
theorem transact_beside {α : Type} {δ : Store → Store} {body : Transaction (Ending α)} {w : World}
    (h : body.Beside δ w.store) (ctx : Context) (b : Blobs) :
    (transact ctx ⟨δ w.store, b⟩ body).answer = (transact ctx w body).answer ∧
      (transact ctx ⟨δ w.store, b⟩ body).world.store = δ (transact ctx w body).world.store := by
  unfold transact
  rw [h.exec]
  generalize body.exec ctx.faults 0 w = result
  obtain ⟨answer, w'⟩ := result
  cases answer with
  | error e => exact ⟨rfl, rfl⟩
  | ok r =>
    obtain ⟨ending, n⟩ := r
    cases ending with
    | rollback a => exact ⟨rfl, rfl⟩
    | commit a es =>
      simp only
      cases ctx.faults.onCommit n <;> exact ⟨rfl, rfl⟩

end JudgeQueue
