import JudgeQueue.Transaction
/-!
# Transactions — runs without faults

What a program ensures says nothing of whether it gets to its end. Without
faults that is decided by its queries: the rules below run a program query by
query, and a request then answers what its body has come to.
-/

namespace JudgeQueue

namespace Transaction

variable {α β : Type} {w w₁ : World}

/-- **The rule of sequence.** -/
theorem run_bind {x : Transaction α} {f : α → Transaction β} {a : α} (h : x.run w = (.ok a, w₁)) :
    (x >>= f).run w = (f a).run w₁ := by
  change (x.bind f).run w = _
  induction x generalizing w with
  | done b =>
    cases h
    rfl
  | fail e => cases h
  | query q next ih =>
    simp only [run, Transaction.bind] at h ⊢
    split at h
    · next b store hq => exact ih b h
    · cases h
  | put key data next ih =>
    simp only [run, Transaction.bind] at h ⊢
    split at h
    · exact ih h
    · cases h

/-- **What fails first** fails as a whole. -/
theorem run_bind_error {x : Transaction α} {f : α → Transaction β} {e : Error}
    (h : x.run w = (.error e, w₁)) : (x >>= f).run w = (.error e, w₁) := by
  change (x.bind f).run w = _
  induction x generalizing w with
  | done a => cases h
  | fail e' =>
    cases h
    rfl
  | query q next ih =>
    simp only [run, Transaction.bind] at h ⊢
    split at h
    · next b store hq => exact ih b h
    · cases h
      rfl
  | put key data next ih =>
    simp only [run, Transaction.bind] at h ⊢
    split at h
    · exact ih h
    · cases h
      rfl

/-- A query that succeeds. -/
theorem run_ask {q : Query α} {r : α × Store} (h : q.run w.store = .ok r) :
    (ask q).run w = (.ok r.1, { w with store := r.2 }) := by
  simp only [ask, run, h]

/-- **A program that gets to its end** gets there as it does without faults. -/
theorem run_of_exec {x : Transaction α} {faults : Faults} {n m : Nat} {a : α}
    (h : x.exec faults n w = (.ok (a, m), w₁)) : x.run w = (.ok a, w₁) := by
  induction x generalizing n w with
  | done b =>
    cases h
    rfl
  | fail e => cases h
  | query q next ih =>
    simp only [exec, run] at h ⊢
    split at h
    · cases h
    · split at h
      · next b store hq => exact ih b h
      · cases h
  | put key data next ih =>
    simp only [exec, run] at h ⊢
    split at h
    · cases h
    · split at h
      · exact ih h
      · cases h

end Transaction

open Transaction

variable {α : Type} {ctx : Context} {w w' : World} {body : Transaction (Ending α)}

/-- **A request without faults** ends as its body does. -/
theorem transact_of_faultless (hfaults : ctx.faults = .none) :
    transact ctx w body = match body.run w with
      | (.ok (.commit a es), w') => ⟨.ok a, w', es⟩
      | (.ok (.rollback a), w') => ⟨.ok a, { w' with store := w.store }, []⟩
      | (.error e, w') => ⟨.error e, { w' with store := w.store }, []⟩ := by
  rw [transact, hfaults, ← exec_none body 0 w]
  generalize body.exec .none 0 w = result
  obtain ⟨answer, w'⟩ := result
  cases answer with
  | error e => rfl
  | ok r =>
    obtain ⟨ending, n⟩ := r
    cases ending <;> rfl

/-- It commits what its body has come to. -/
theorem transact_run (hfaults : ctx.faults = .none) {a : α} {es : List Event}
    (h : body.run w = (.ok (.commit a es), w')) : transact ctx w body = ⟨.ok a, w', es⟩ := by
  rw [transact_of_faultless hfaults, h]

/-- It answers, but drops all changes. -/
theorem transact_run_rollback (hfaults : ctx.faults = .none) {a : α}
    (h : body.run w = (.ok (.rollback a), w')) :
    transact ctx w body = ⟨.ok a, { w' with store := w.store }, []⟩ := by
  rw [transact_of_faultless hfaults, h]

/-- It answers the error and drops all changes. -/
theorem transact_run_error (hfaults : ctx.faults = .none) {e : Error}
    (h : body.run w = (.error e, w')) :
    transact ctx w body = ⟨.error e, { w' with store := w.store }, []⟩ := by
  rw [transact_of_faultless hfaults, h]

/-- **A request that is answered** has met no fault: it commits what its body
comes to without. -/
theorem transact_run_of_ok {a b : α} {es : List Event}
    (h : body.run w = (.ok (.commit a es), w')) (hok : (transact ctx w body).answer = .ok b) :
    transact ctx w body = ⟨.ok a, w', es⟩ := by
  unfold transact at hok ⊢
  split at hok
  · next hexec =>
    cases h.symm.trans (run_of_exec hexec)
    split at hok
    · rfl
    · cases hok
  · next hexec => cases h.symm.trans (run_of_exec hexec)
  · cases hok

end JudgeQueue
