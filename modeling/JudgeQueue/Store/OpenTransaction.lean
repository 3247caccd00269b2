import JudgeQueue.Store.Query
/-!
# Open transactions

A transaction in which queries are asked one by one. A query that fails
leaves the transaction open and unchanged. Closing it drops all changes
unless they have been committed; once they have, later changes stay too.
-/

namespace JudgeQueue

/-- The store before a transaction, and within it. -/
structure OpenTransaction where
  start : Store
  current : Store
  committed : Bool := false

namespace OpenTransaction

/-- Begins a transaction. -/
def begin (s : Store) : OpenTransaction :=
  ⟨s, s, false⟩

/-- Asks a query. -/
def ask {α : Type} (t : OpenTransaction) (q : Query α) : Except Error α × OpenTransaction :=
  match q.run t.current with
  | .ok (a, s) => (.ok a, { t with current := s })
  | .error e => (.error e, t)

/-- Queues judgings one after another, up to the first that fails. -/
def insertJudgings (t : OpenTransaction) :
    List NewJudging → Except Error (List Judging) × OpenTransaction
  | [] => (.ok [], t)
  | new :: rest =>
    match t.ask (.insertJudging new) with
    | (.error e, t) => (.error e, t)
    | (.ok j, t) =>
      let (js, t) := t.insertJudgings rest
      (js.map (j :: ·), t)

/-- Keeps the changes. -/
def commit (t : OpenTransaction) : OpenTransaction :=
  { t with committed := true }

/-- The store after the transaction. -/
def close (t : OpenTransaction) : Store :=
  if t.committed then t.current else t.start

end OpenTransaction

end JudgeQueue
