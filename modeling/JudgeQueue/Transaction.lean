import JudgeQueue.Blobs
import JudgeQueue.Event
import JudgeQueue.Store.Query
/-!
# Transactions

A transaction is a program over queries. It may also put blobs, which lie
outside of the store and stay put whatever becomes of the transaction. Run
to its end it is kept or dropped as a whole: an error drops every change of
the store, and events are published only once the changes are kept.

Every step may fail for reasons of its surroundings. Faults say which steps
do; a transaction without them runs as its queries do.
-/

namespace JudgeQueue

/-- A program over queries, by the type of its answer. -/
inductive Transaction (α : Type) : Type 1
  | done (answer : α)
  | fail (error : Error)
  | query {β : Type} (q : Query β) (next : β → Transaction α)
  | put (key : BlobKey) (data : Bytes) (next : Transaction α)

/-- What a transaction acts on. -/
structure World where
  store : Store := {}
  blobs : Blobs := .memory []

/-- Which steps fail, and how. Steps are told apart by what they ask and by
their number within the transaction. -/
structure Faults where
  onQuery : {β : Type} → Nat → Query β → Option Error
  onPut : Nat → BlobKey → Option Error
  onCommit : Nat → Option Error
  onGet : BlobKey → Option Error

/-- No step fails. -/
def Faults.none : Faults :=
  ⟨fun _ _ => .none, fun _ _ => .none, fun _ => .none, fun _ => .none⟩

namespace Transaction

/-- One program after another. -/
protected def bind {α β : Type} : Transaction α → (α → Transaction β) → Transaction β
  | done a, f => f a
  | fail e, _ => fail e
  | query q next, f => query q fun b => (next b).bind f
  | put key data next, f => put key data (next.bind f)

instance : Monad Transaction where
  pure := done
  bind := Transaction.bind

/-- Asks one query. -/
def ask {α : Type} (q : Query α) : Transaction α :=
  query q done

/-- Puts one blob. -/
def putBlob (key : BlobKey) (data : Bytes) : Transaction Unit :=
  put key data (done ())

/-- The value that is there, or else an error. -/
def need {α : Type} (e : Error) : Option α → Transaction α
  | some a => done a
  | none => fail e

/-- Fails unless a condition holds. -/
def unlessError (condition : Bool) (e : Error) : Transaction Unit :=
  if condition then done () else fail e

/-- Runs a program, numbering its steps from `n`. An error leaves the world
as it was when it arose. -/
def exec {α : Type} (faults : Faults) (n : Nat) :
    Transaction α → World → Except Error (α × Nat) × World
  | done a, w => (.ok (a, n), w)
  | fail e, w => (.error e, w)
  | query q next, w =>
    match faults.onQuery n q with
    | some e => (.error e, w)
    | none =>
      match q.run w.store with
      | .ok (b, store) => (next b).exec faults (n + 1) { w with store }
      | .error e => (.error e, w)
  | put key data next, w =>
    match faults.onPut n key with
    | some e => (.error e, w)
    | none =>
      match w.blobs.put key data with
      | .ok blobs => next.exec faults (n + 1) { w with blobs }
      | .error e => (.error (.storage e.message), w)

/-- Runs a program without faults. -/
def run {α : Type} : Transaction α → World → Except Error α × World
  | done a, w => (.ok a, w)
  | fail e, w => (.error e, w)
  | query q next, w =>
    match q.run w.store with
    | .ok (b, store) => (next b).run { w with store }
    | .error e => (.error e, w)
  | put key data next, w =>
    match w.blobs.put key data with
    | .ok blobs => next.run { w with blobs }
    | .error e => (.error (.storage e.message), w)

/-- How a transaction ends that does not fail: its changes are kept and its
events published, or its changes are dropped. -/
inductive Ending (α : Type)
  | commit (answer : α) (events : List Event)
  | rollback (answer : α)

/-- Ends with the changes kept. -/
def commit {α : Type} (answer : α) (events : List Event) : Transaction (Ending α) :=
  done (.commit answer events)

/-- Ends with the changes dropped. -/
def rollback {α : Type} (answer : α) : Transaction (Ending α) :=
  done (.rollback answer)

end Transaction

/-- What comes of a request: its answer, the world after it, and the events
it published. -/
structure Outcome (α : Type) where
  answer : Except Error α
  world : World
  events : List Event

/-- The executables that problems use by default. -/
structure DefaultScripts where
  run : String
  compare : String
deriving DecidableEq, Repr

/-- What a request finds around it: the time, the default scripts and the
steps that fail. -/
structure Context where
  now : Instant
  scripts : DefaultScripts
  faults : Faults := .none

open Transaction in
/-- Runs a transaction on a world. -/
def transact {α : Type} (ctx : Context) (w : World) (body : Transaction (Ending α)) : Outcome α :=
  match body.exec ctx.faults 0 w with
  | (.ok (.commit a events, n), w') =>
    match ctx.faults.onCommit n with
    | none => ⟨.ok a, w', events⟩
    | some e => ⟨.error e, { w' with store := w.store }, []⟩
  | (.ok (.rollback a, _), w') => ⟨.ok a, { w' with store := w.store }, []⟩
  | (.error e, w') => ⟨.error e, { w' with store := w.store }, []⟩

/-- Reads a blob outside of any transaction. -/
def readBlob (ctx : Context) (w : World) (key : BlobKey) : Except Error (Option Bytes) :=
  match ctx.faults.onGet key with
  | some e => .error e
  | none =>
    match w.blobs.get key with
    | .ok data => .ok data
    | .error e => .error (.storage e.message)

/-! ## Laws -/

namespace Transaction

theorem bind_assoc' {α β γ : Type} (x : Transaction α) (f : α → Transaction β)
    (g : β → Transaction γ) : (x.bind f).bind g = x.bind fun a => (f a).bind g := by
  induction x with
  | done a => rfl
  | fail e => rfl
  | query q next ih => exact congrArg (query q) (funext fun b => ih b)
  | put key data next ih => exact congrArg (put key data) ih

theorem bind_done' {α : Type} (x : Transaction α) : x.bind done = x := by
  induction x with
  | done a => rfl
  | fail e => rfl
  | query q next ih => exact congrArg (query q) (funext fun b => ih b)
  | put key data next ih => exact congrArg (put key data) ih

instance : LawfulMonad Transaction := LawfulMonad.mk' Transaction
  bind_done'
  (fun _ _ => rfl)
  bind_assoc'

/-- **A transaction without faults runs as its queries do.** -/
theorem exec_none {α : Type} (x : Transaction α) (n : Nat) (w : World) :
    ((x.exec .none n w).1.map Prod.fst, (x.exec .none n w).2) = x.run w := by
  induction x generalizing n w with
  | done a => rfl
  | fail e => rfl
  | query q next ih =>
    simp only [exec, run, Faults.none]
    split
    · exact ih _ _ _
    · rfl
  | put key data next ih =>
    simp only [exec, run, Faults.none]
    split
    · exact ih _ _
    · rfl

end Transaction

end JudgeQueue
