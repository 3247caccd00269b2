import JudgeQueue.Proofs.Calls.Apart
import JudgeQueue.Proofs.Transaction.Leaves
/-!
# Calls of judgehosts — being turned away

A judgehost that is unknown or switched off is turned away whatever it asks for,
and any other is turned away where it asks about a judging that it does not
hold. The call may be recorded, and that is all that comes of it.
-/

namespace JudgeQueue

open Transaction

/-- What a judgehost asks for once it has registered, by what it may get. -/
inductive Call : Type → Type
  | claimJudging : Call Payload
  | claimTestcase (judgingId : Int) : Call Testcase
  | fetchTestcase (testcaseId : Int) (kind : TestcaseKind) : Call Bytes
  | reportCompilation (judgingId : Int) (success : Bool) (output : String) : Call Judging
  | reportRuns (judgingId : Int) (reports : List RunReport) : Call Judging

namespace Call

variable {β : Type}

/-- The request that a judgehost makes by a call. -/
def operation (hostname : String) : Call β → Operation (Option β)
  | claimJudging => .claimJudging hostname
  | claimTestcase judgingId => .claimTestcase hostname judgingId
  | fetchTestcase testcaseId kind => .fetchTestcase hostname testcaseId kind
  | reportCompilation judgingId success output =>
    .reportCompilation hostname judgingId success output
  | reportRuns judgingId reports => .reportRuns hostname judgingId reports

/-- The judging that a call is about. -/
def judgingId : Call β → Option Int
  | claimTestcase judgingId => some judgingId
  | reportCompilation judgingId _ _ => some judgingId
  | reportRuns judgingId _ => some judgingId
  | claimJudging => none
  | fetchTestcase _ _ => none

end Call

/-- A judgehost may get work, and holds the judging that it asks about. -/
structure Store.Serves {β : Type} (s : Store) (hostname : String) (c : Call β) : Prop where
  active : ∃ h ∈ s.judgehosts, h.hostname = hostname ∧ h.active = true
  held : ∀ id, c.judgingId = some id → ∃ j ∈ s.judgings, j.id = id ∧ j.isClaimedBy hostname = true

/-- **A judgehost is turned away**: the call is recorded at most, no blob is put,
nothing is published, and nothing handed out. -/
structure Outcome.TurnedAway {β : Type} (o : Outcome (Option β)) (w : World) (hostname : String)
    (now : Instant) : Prop where
  store : o.world.store = w.store ∨ o.world.store = w.store.touchJudgehost hostname now
  blobs : o.world.blobs = w.blobs
  events : o.events = []
  answer : ∀ a, o.answer ≠ .ok (some a)

/-! ## Programs that turn a judgehost away -/

namespace Transaction

variable {α β : Type} {w : World} {hostname : String} {now : Instant}

/-- A program that hands out nothing, if it gets to its end, and puts no
blob. -/
def Refuses (x : Transaction (Ending (Option β))) (w₀ w : World) (hostname : String)
    (now : Instant) : Prop :=
  x.Leaves w
    (fun ending w' => ending = .commit none [] ∧ w'.blobs = w₀.blobs ∧
      (w'.store = w₀.store ∨ w'.store = w₀.store.touchJudgehost hostname now))
    fun w' => w'.blobs = w₀.blobs

/-- The heartbeat may fail at either query, and leaves the blobs alone. -/
theorem leaves_heartbeat {Q : Bool → World → Prop} {E : World → Prop}
    (hE : ∀ store, E { w with store })
    (hQ : Q (w.store.admits hostname) { w with store := w.store.touchJudgehost hostname now }) :
    (heartbeat hostname now).Leaves w Q E := by
  refine ⟨hE w.store, fun b store hq => ?_⟩
  cases hq
  cases hfind : w.store.judgehosts.find? hostname with
  | none =>
    rwa [Store.admits, hfind, Store.touchJudgehost_of_unknown hfind] at hQ
  | some host =>
    refine ⟨hE w.store, fun b store hq => ?_⟩
    cases hq
    rwa [Store.admits, hfind] at hQ

/-- A call refuses if it does so to the judgehosts that may get work. -/
theorem refuses_heartbeat {f : Bool → Transaction (Ending (Option β))}
    (hfalse : f false = commit none [])
    (htrue : (∃ h ∈ w.store.judgehosts, h.hostname = hostname ∧ h.active = true) →
      (f true).Refuses w { w with store := w.store.touchJudgehost hostname now } hostname now) :
    (heartbeat hostname now >>= f).Refuses w w hostname now := by
  refine leaves_bind.mpr (leaves_heartbeat (fun _ => rfl) ?_)
  cases hadmits : w.store.admits hostname with
  | false =>
    rw [hfalse]
    exact ⟨rfl, rfl, .inr rfl⟩
  | true => exact htrue (Store.admits_iff.mp hadmits)

/-- A call about a judging refuses if its judgehost does not hold it. -/
theorem refuses_loadJudging {id : Int} {f : Judging → Transaction (Ending (Option β))}
    (hfree : ∀ j, j.isClaimedBy hostname = false → f j = commit none [])
    (hheld : ¬ ∃ j ∈ w.store.judgings, j.id = id ∧ j.isClaimedBy hostname = true) :
    (loadJudging id >>= f).Refuses w { w with store := w.store.touchJudgehost hostname now }
      hostname now := by
  refine leaves_bind.mpr (leaves_loadJudging rfl fun j hfind => ?_)
  obtain ⟨hmem, hid⟩ := Store.mem_of_find?_judging hfind
  have hnot : j.isClaimedBy hostname = false :=
    Bool.eq_false_iff.mpr fun hclaimed => hheld ⟨j, hmem, hid, hclaimed⟩
  rw [hfree j hnot]
  exact ⟨rfl, rfl, .inr rfl⟩

end Transaction

/-! ## Calls that turn a judgehost away -/

variable {β : Type} {w : World} {hostname : String}

/-- A request whose program refuses turns the judgehost away, whichever steps
fail. -/
theorem transact_turnedAway {ctx : Context} {body : Transaction (Ending (Option β))}
    (h : body.Refuses w w hostname ctx.now) :
    (transact ctx w body).TurnedAway w hostname ctx.now := by
  rcases Leaves.transact h ctx with
    ⟨a, es, w', ⟨hcommit, hblobs, hstore⟩, heq⟩ | ⟨a, w', ⟨hcommit, -⟩, -⟩ | ⟨e, w', hleft, heq⟩
  · cases hcommit
    rw [heq]
    exact ⟨hstore, hblobs, rfl, nofun⟩
  · cases hcommit
  · have hblobs : w'.blobs = w.blobs := hleft.elim (fun ⟨_, _, _, hblobs, _⟩ => hblobs) id
    rw [heq]
    exact ⟨.inl rfl, hblobs, rfl, nofun⟩

/-- A judgehost that asks for content is turned away if it is when it asks
where the content is. -/
theorem turnedAway_fetchTestcase {ctx : Context} {testcaseId : Int} {kind : TestcaseKind}
    (h : (transact ctx w (Dispatch.findContent hostname testcaseId ctx.now)).TurnedAway w hostname
      ctx.now) :
    (Dispatch.fetchTestcase ctx w hostname testcaseId kind).TurnedAway w hostname ctx.now := by
  unfold Dispatch.fetchTestcase
  simp only
  split
  · exact ⟨h.store, h.blobs, rfl, nofun⟩
  · exact ⟨h.store, h.blobs, rfl, nofun⟩
  · next testcase hanswer => exact absurd hanswer (h.answer testcase)

/-- **Whoever is not served is turned away.** -/
theorem Call.turnedAway (c : Call β) (hserves : ¬ w.store.Serves hostname c) (ctx : Context) :
    ((c.operation hostname).perform ctx w).TurnedAway w hostname ctx.now := by
  cases c with
  | claimJudging =>
    exact transact_turnedAway (refuses_heartbeat rfl fun hactive =>
      absurd ⟨hactive, nofun⟩ hserves)
  | fetchTestcase testcaseId kind =>
    exact turnedAway_fetchTestcase (transact_turnedAway (refuses_heartbeat rfl fun hactive =>
      absurd ⟨hactive, nofun⟩ hserves))
  | claimTestcase judgingId =>
    refine transact_turnedAway (refuses_heartbeat rfl fun hactive => ?_)
    refine refuses_loadJudging (fun j hfree => by rw [hfree]; rfl) fun hheld => ?_
    exact hserves ⟨hactive, by rintro _ ⟨⟩; exact hheld⟩
  | reportCompilation judgingId success output =>
    refine transact_turnedAway (refuses_heartbeat rfl fun hactive => ?_)
    refine refuses_loadJudging (fun j hfree => by rw [hfree]; rfl) fun hheld => ?_
    exact hserves ⟨hactive, by rintro _ ⟨⟩; exact hheld⟩
  | reportRuns judgingId reports =>
    refine transact_turnedAway ?_
    unfold Grading.reportRuns
    split
    · exact rfl
    · refine refuses_heartbeat rfl fun hactive => ?_
      refine refuses_loadJudging (fun j hfree => by rw [hfree]; rfl) fun hheld => ?_
      exact hserves ⟨hactive, by rintro _ ⟨⟩; exact hheld⟩

end JudgeQueue
