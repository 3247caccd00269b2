import JudgeQueue.Transaction
/-!
# Transactions — what a program ensures

A program ensures a condition from a store if the condition holds of its
answer and of the store it leaves, whenever it gets that far. Failing
ensures everything, since a request that fails leaves the store as it was.
The rules below compute what a program ensures from its queries, so that a
request is followed query by query, and `transact_events` carries the result
to the request as a whole: whatever steps its surroundings make fail, it
either commits what its body ensures or changes nothing and publishes
nothing.
-/

namespace JudgeQueue

namespace Transaction

variable {α β : Type} {s : Store}

/-- The condition holds of the answer and the store after it, if the program
succeeds. -/
def Ensures : Transaction α → Store → (α → Store → Prop) → Prop
  | done a, s, Q => Q a s
  | fail _, _, _ => True
  | query q next, s, Q => ∀ b s', q.run s = .ok (b, s') → (next b).Ensures s' Q
  | put _ _ next, s, Q => next.Ensures s Q

/-- A weaker condition is ensured too. -/
theorem Ensures.mono {x : Transaction α} {Q R : α → Store → Prop} (h : x.Ensures s Q)
    (hQ : ∀ a s', Q a s' → R a s') : x.Ensures s R := by
  induction x generalizing s with
  | done a => exact hQ a s h
  | fail e => trivial
  | query q next ih => exact fun b s' hq => ih b (h b s' hq)
  | put key data next ih => exact ih h

/-- Nothing has to be shown for a condition that always holds. -/
theorem ensures_true (x : Transaction α) (s : Store) : x.Ensures s fun _ _ => True := by
  induction x generalizing s with
  | done a => trivial
  | fail e => trivial
  | query q next ih => exact fun b s' _ => ih b s'
  | put key data next ih => exact ih s

/-- **The rule of sequence.** -/
@[simp] theorem ensures_bind {x : Transaction α} {f : α → Transaction β} {Q : β → Store → Prop} :
    (x >>= f).Ensures s Q ↔ x.Ensures s fun a s' => (f a).Ensures s' Q := by
  change (x.bind f).Ensures s Q ↔ _
  induction x generalizing s with
  | done a => exact Iff.rfl
  | fail e => exact Iff.rfl
  | query q next ih =>
    exact forall_congr' fun b => forall_congr' fun s' => imp_congr_right fun _ => ih b
  | put key data next ih => exact ih

@[simp] theorem ensures_pure {a : α} {Q : α → Store → Prop} :
    (pure a : Transaction α).Ensures s Q ↔ Q a s := Iff.rfl

@[simp] theorem ensures_map {x : Transaction α} {f : α → β} {Q : β → Store → Prop} :
    (f <$> x).Ensures s Q ↔ x.Ensures s fun a s' => Q (f a) s' := by
  rw [map_eq_pure_bind, ensures_bind]
  rfl

@[simp] theorem ensures_fail {e : Error} {Q : α → Store → Prop} :
    (fail e : Transaction α).Ensures s Q := trivial

@[simp] theorem ensures_need {e : Error} {o : Option α} {Q : α → Store → Prop} :
    (need e o).Ensures s Q ↔ ∀ a, o = some a → Q a s := by
  cases o <;> simp [need, Ensures]

@[simp] theorem ensures_unlessError {c : Bool} {e : Error} {Q : Unit → Store → Prop} :
    (unlessError c e).Ensures s Q ↔ (c = true → Q () s) := by
  cases c <;> simp [unlessError, Ensures]

@[simp] theorem ensures_putBlob {k : BlobKey} {data : Bytes} {Q : Unit → Store → Prop} :
    (putBlob k data).Ensures s Q ↔ Q () s := Iff.rfl

/-- A query ensures what holds of its answer and the store it leaves. -/
theorem ensures_ask {q : Query α} {Q : α → Store → Prop} :
    (ask q).Ensures s Q ↔ match q.run s with
      | .ok r => Q r.1 r.2
      | .error _ => True := by
  change (∀ b s', q.run s = .ok (b, s') → Q b s') ↔ _
  cases h : q.run s with
  | ok r => exact ⟨fun hQ => hQ r.1 r.2 rfl, by rintro hQ b s' ⟨⟩; exact hQ⟩
  | error e => simp

/-! ## From the body to the request -/

/-- What a body ensures of its answer, its events and the store it leaves,
if it commits. -/
def Commits (body : Transaction (Ending α)) (s : Store) (P : α → List Event → Store → Prop) :
    Prop :=
  body.Ensures s fun e s' => ∀ a es, e = .commit a es → P a es s'

@[simp] theorem commits_bind {x : Transaction α} {f : α → Transaction (Ending β)}
    {P : β → List Event → Store → Prop} :
    (x >>= f).Commits s P ↔ x.Ensures s fun a s' => (f a).Commits s' P :=
  ensures_bind

@[simp] theorem commits_commit {a : α} {es : List Event} {P : α → List Event → Store → Prop} :
    (commit a es).Commits s P ↔ P a es s := by
  simp [Commits, commit, Ensures]

@[simp] theorem commits_rollback {a : α} {P : α → List Event → Store → Prop} :
    (rollback a).Commits s P := by
  simp [Commits, rollback, Ensures]

@[simp] theorem commits_fail {e : Error} {P : α → List Event → Store → Prop} :
    (fail e : Transaction (Ending α)).Commits s P :=
  ensures_fail

theorem Commits.mono {body : Transaction (Ending α)} {P R : α → List Event → Store → Prop}
    (h : body.Commits s P) (hP : ∀ a es s', P a es s' → R a es s') : body.Commits s R :=
  Ensures.mono h fun _ s' hc a es he => hP a es s' (hc a es he)

/-- What a program ensures holds of its result, whichever steps fail. -/
theorem Ensures.exec {x : Transaction α} {Q : α → Store → Prop} {faults : Faults} {n m : Nat}
    {w w' : World} {a : α} (h : x.Ensures w.store Q)
    (hx : x.exec faults n w = (.ok (a, m), w')) : Q a w'.store := by
  induction x generalizing n w with
  | done b =>
    cases hx
    exact h
  | fail e => cases hx
  | query q next ih =>
    simp only [Transaction.exec] at hx
    split at hx
    · cases hx
    · split at hx
      · next b store hq =>
        have hnext : (next b).Ensures ({ w with store } : World).store Q := h b store hq
        exact ih b hnext hx
      · cases hx
  | put key data next ih =>
    simp only [Transaction.exec] at hx
    split at hx
    · cases hx
    · split at hx
      · next blobs hput =>
        have hnext : next.Ensures ({ w with blobs } : World).store Q := h
        exact ih hnext hx
      · cases hx

end Transaction

open Transaction

variable {α : Type} {ctx : Context} {w : World} {body : Transaction (Ending α)}

/-- **A request commits what its body ensures, or leaves everything as it
was** and publishes nothing. -/
theorem transact_commits {P : α → List Event → Store → Prop} (h : body.Commits w.store P)
    (ctx : Context) :
    (∃ a, (transact ctx w body).answer = .ok a ∧
        P a (transact ctx w body).events (transact ctx w body).world.store) ∨
      (transact ctx w body).events = [] ∧ (transact ctx w body).world.store = w.store := by
  unfold transact
  split
  · next a es n w' hx =>
    split
    · exact .inl ⟨a, rfl, h.exec hx a es rfl⟩
    · exact .inr ⟨rfl, rfl⟩
  · exact .inr ⟨rfl, rfl⟩
  · exact .inr ⟨rfl, rfl⟩

/-- **A request that fails** leaves the store as it was and publishes
nothing. -/
theorem transact_error {e : Error} (h : (transact ctx w body).answer = .error e) :
    (transact ctx w body).events = [] ∧ (transact ctx w body).world.store = w.store := by
  have hfailed : body.Commits w.store fun _ _ _ => True :=
    (ensures_true body w.store).mono fun _ _ _ _ _ _ => trivial
  rcases transact_commits hfailed ctx with ⟨a, hanswer, -⟩ | hsame
  · rw [hanswer] at h
    cases h
  · exact hsame

/-- What holds of everything a body commits, and of nothing having happened,
holds of the request. -/
theorem transact_events {P : List Event → Store → Prop}
    (h : body.Commits w.store fun _ es s => P es s) (hsame : P [] w.store) :
    P (transact ctx w body).events (transact ctx w body).world.store := by
  rcases transact_commits h ctx with ⟨-, -, hP⟩ | ⟨hes, hstore⟩
  · exact hP
  · rwa [hes, hstore]

end JudgeQueue
