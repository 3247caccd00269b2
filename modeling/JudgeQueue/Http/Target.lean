import JudgeQueue.Text.Split
/-!
# Request targets

A target is a path with an optional query. A path is divided at its slashes,
so the path of a root-relative target has an empty first segment.
-/

namespace JudgeQueue

/-- What a request is about. -/
structure Target where
  path : String
  query : String
deriving DecidableEq, Repr

namespace Target

/-- Divides a target at the first question mark; a fragment is dropped. -/
def ofText (text : String) : Target :=
  let (path, query) := Split.atFirst '?' (Split.atFirst '#' text.toList).1
  ⟨String.ofList path, String.ofList (query.getD [])⟩

/-- The segments of the path. -/
def segments (t : Target) : List String :=
  Split.text '/' t.path

end Target

end JudgeQueue
