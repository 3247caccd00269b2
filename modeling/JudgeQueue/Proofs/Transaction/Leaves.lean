import JudgeQueue.Proofs.Transaction.Effects
/-!
# Transactions — the world a program leaves

A program that fails half way drops what it did to the store, but not the blobs
it has put. So what it leaves is told by two conditions: one of its answer and
the world, if it gets to its end, and one of the world where it stopped, if it
does not. Any step may be the one that fails.
-/

namespace JudgeQueue

namespace Transaction

variable {α β : Type} {E : List Effect} {w : World}

/-- The first condition holds of the answer and the world if the program
succeeds, the second one of the world if it fails, whichever step that may
be. -/
def Leaves : Transaction α → World → (α → World → Prop) → (World → Prop) → Prop
  | done a, w, Q, _ => Q a w
  | fail _, w, _, E => E w
  | query q next, w, Q, E =>
    E w ∧ ∀ b store, q.run w.store = .ok (b, store) → (next b).Leaves { w with store } Q E
  | put key data next, w, Q, E =>
    E w ∧ ∀ blobs, w.blobs.put key data = .ok blobs → next.Leaves { w with blobs } Q E

/-- Weaker conditions are left too. -/
theorem Leaves.mono {x : Transaction α} {Q R : α → World → Prop} {E F : World → Prop}
    (h : x.Leaves w Q E) (hQ : ∀ a w', Q a w' → R a w') (hE : ∀ w', E w' → F w') :
    x.Leaves w R F := by
  induction x generalizing w with
  | done a => exact hQ a w h
  | fail e => exact hE w h
  | query q next ih => exact ⟨hE w h.1, fun b store hq => ih b (h.2 b store hq)⟩
  | put key data next ih => exact ⟨hE w h.1, fun blobs hput => ih (h.2 blobs hput)⟩

/-- **The rule of sequence.** -/
theorem leaves_bind {x : Transaction α} {f : α → Transaction β} {Q : β → World → Prop}
    {E : World → Prop} :
    (x >>= f).Leaves w Q E ↔ x.Leaves w (fun a w' => (f a).Leaves w' Q E) E := by
  change (x.bind f).Leaves w Q E ↔ _
  induction x generalizing w with
  | done a => exact Iff.rfl
  | fail e => exact Iff.rfl
  | query q next ih =>
    exact and_congr_right fun _ => forall_congr' fun b => forall_congr' fun store =>
      imp_congr_right fun _ => ih b
  | put key data next ih =>
    exact and_congr_right fun _ => forall_congr' fun blobs => imp_congr_right fun _ => ih

theorem leaves_unlessError {c : Bool} {e : Error} {Q : Unit → World → Prop} {E : World → Prop}
    (hE : E w) (hQ : c = true → Q () w) : (unlessError c e).Leaves w Q E := by
  cases c with
  | false => exact hE
  | true => exact hQ rfl

/-- A program goes on with the judging of an id, or fails. -/
theorem leaves_loadJudging {id : Int} {Q : Judging → World → Prop} {E : World → Prop} (hE : E w)
    (hQ : ∀ j, w.store.judgings.find? id = some j → Q j w) : (loadJudging id).Leaves w Q E := by
  refine ⟨hE, fun b store hq => ?_⟩
  cases hq
  cases hfind : w.store.judgings.find? id with
  | none => exact hE
  | some j => exact hQ j hfind

/-- A program that neither records runs nor puts blobs leaves the blobs alone
and keeps the runs. -/
theorem Within.leaves {x : Transaction α} {P : α → Prop} (h : x.Within E P)
    (hrecords : .records ∉ E) (hputs : .puts ∉ E) (w : World) :
    x.Leaves w (fun _ w' => w'.blobs = w.blobs ∧ w.store.KeepsRuns w'.store)
      fun w' => w'.blobs = w.blobs ∧ w.store.KeepsRuns w'.store := by
  induction x generalizing w with
  | done a => exact ⟨rfl, .refl _⟩
  | fail e => exact ⟨rfl, .refl _⟩
  | query q next ih =>
    refine ⟨⟨rfl, .refl _⟩, fun b store hq => ?_⟩
    have hkeeps : w.store.KeepsRuns store :=
      Query.keepsRuns_run (fun heq => hrecords (h.1 .records heq)) hq
    exact (ih b (h.2 b) { w with store }).mono
      (fun _ _ hsame => ⟨hsame.1, hkeeps.trans hsame.2⟩)
      fun _ hsame => ⟨hsame.1, hkeeps.trans hsame.2⟩
  | put key data next ih => exact absurd h.1 hputs

/-- What such a program begins goes on from a world with the same blobs and no
new runs. -/
theorem Asks.leaves_bind {x : Transaction α} {f : α → Transaction β} {Q : β → World → Prop}
    {F : World → Prop} (hx : x.Asks [])
    (hf : ∀ a w₁, w₁.blobs = w.blobs → w.store.KeepsRuns w₁.store → (f a).Leaves w₁ Q F)
    (hE : ∀ w₁, w₁.blobs = w.blobs → w.store.KeepsRuns w₁.store → F w₁) :
    (x >>= f).Leaves w Q F := by
  rw [Transaction.leaves_bind]
  exact (hx.leaves List.not_mem_nil List.not_mem_nil w).mono (fun a w₁ h => hf a w₁ h.1 h.2)
    fun w₁ h => hE w₁ h.1 h.2

/-- **What a program leaves** is found where it stops. -/
theorem Leaves.exec {x : Transaction α} {Q : α → World → Prop} {E : World → Prop}
    (h : x.Leaves w Q E) (faults : Faults) (n : Nat) :
    match x.exec faults n w with
    | (.ok (a, _), w') => Q a w'
    | (.error _, w') => E w' := by
  induction x generalizing n w with
  | done a => exact h
  | fail e => exact h
  | query q next ih =>
    simp only [Transaction.exec]
    cases faults.onQuery n q with
    | some e => exact h.1
    | none =>
      simp only
      cases hq : q.run w.store with
      | ok r => exact ih r.1 (h.2 r.1 r.2 hq) (n + 1)
      | error e => exact h.1
  | put key data next ih =>
    simp only [Transaction.exec]
    cases faults.onPut n key with
    | some e => exact h.1
    | none =>
      simp only
      cases hput : w.blobs.put key data with
      | ok blobs => exact ih (h.2 blobs hput) (n + 1)
      | error e => exact h.1

end Transaction

open Transaction

/-- **From the body to the request.** It ends in a world that its body leaves with
a commit, or else in one with the blobs that the body leaves and the store as it
was. A commit that fails comes to the latter. -/
theorem Transaction.Leaves.transact {α : Type} {w : World} {body : Transaction (Ending α)}
    {Q : Ending α → World → Prop} {E : World → Prop} (h : body.Leaves w Q E) (ctx : Context) :
    (∃ a es w', Q (.commit a es) w' ∧ transact ctx w body = ⟨.ok a, w', es⟩) ∨
      (∃ a w', Q (.rollback a) w' ∧
        transact ctx w body = ⟨.ok a, { w' with store := w.store }, []⟩) ∨
      ∃ e w', ((∃ a es, Q (.commit a es) w') ∨ E w') ∧
        transact ctx w body = ⟨.error e, { w' with store := w.store }, []⟩ := by
  have hexec := h.exec ctx.faults 0
  unfold JudgeQueue.transact
  generalize body.exec ctx.faults 0 w = result at hexec ⊢
  rcases result with ⟨_ | ⟨⟨a, es⟩ | a, n⟩, w'⟩
  · next e => exact .inr (.inr ⟨e, w', .inr hexec, rfl⟩)
  · simp only
    cases ctx.faults.onCommit n with
    | none => exact .inl ⟨a, es, w', hexec, rfl⟩
    | some e => exact .inr (.inr ⟨e, w', .inl ⟨a, es, hexec⟩, rfl⟩)
  · exact .inr (.inl ⟨a, w', hexec, rfl⟩)

/-- **A request that neither records runs nor puts blobs** leaves the blobs
alone and comes by no run that was not there before, whichever steps fail. -/
theorem transact_quiet {α : Type} {E : List Effect} {body : Transaction (Ending α)}
    (h : body.Minds E) (hrecords : .records ∉ E) (hputs : .puts ∉ E) (ctx : Context) (w : World) :
    (transact ctx w body).world.blobs = w.blobs ∧
      w.store.KeepsRuns (transact ctx w body).world.store := by
  rcases (h.leaves hrecords hputs w).transact ctx with
    ⟨a, es, w', hleft, heq⟩ | ⟨a, w', hleft, heq⟩ | ⟨e, w', hleft, heq⟩
  · rw [heq]
    exact hleft
  · rw [heq]
    exact ⟨hleft.1, .refl _⟩
  · rw [heq]
    rcases hleft with ⟨-, -, hblobs, -⟩ | ⟨hblobs, -⟩
    · exact ⟨hblobs, .refl _⟩
    · exact ⟨hblobs, .refl _⟩

/-- **What a request leaves** whose body commits if it succeeds. Where it fails
the store is as it was, and the blobs are those of a world that the body has
left, one way or the other. -/
theorem transact_leaves {α : Type} {ctx : Context} {w : World} {body : Transaction (Ending α)}
    {Q : World → Prop} {E : World → Prop}
    (h : body.Leaves w (fun ending w' => (∃ a es, ending = .commit a es) ∧ Q w') E)
    (hQE : ∀ w', Q w' → E w') :
    (∃ a, (transact ctx w body).answer = .ok a) ∧ Q (transact ctx w body).world ∨
      (∃ e, (transact ctx w body).answer = .error e) ∧ (transact ctx w body).world.store = w.store ∧
        ∃ w', E w' ∧ (transact ctx w body).world.blobs = w'.blobs := by
  rcases h.transact ctx with
    ⟨a, es, w', ⟨-, hQ⟩, heq⟩ | ⟨a, w', ⟨⟨b, es, hcommit⟩, -⟩, -⟩ | ⟨e, w', hleft, heq⟩
  · rw [heq]
    exact .inl ⟨⟨a, rfl⟩, hQ⟩
  · cases hcommit
  · rw [heq]
    have hE : E w' := hleft.elim (fun ⟨_, _, _, hQ⟩ => hQE w' hQ) id
    exact .inr ⟨⟨e, rfl⟩, rfl, w', hE, rfl⟩

end JudgeQueue
