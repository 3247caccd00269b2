import JudgeQueue.Http.Target
/-!
# The access log

One line for each request. Failures of the service and of clients are
warnings, but for a path that does not exist. Judgehosts poll all the time,
so a poll that goes well is of little interest.
-/

namespace JudgeQueue

/-- How much attention a line asks for. -/
inductive LogLevel
  | debug
  | info
  | warn
deriving DecidableEq, Repr

/-- The name of a level. -/
def LogLevel.name : LogLevel → String
  | debug => "DEBUG"
  | info => "INFO"
  | warn => "WARN"

/-- A line about a request that has been answered. -/
structure LogLine where
  level : LogLevel
  message : String
  method : String
  path : String
  status : Nat
deriving DecidableEq, Repr

namespace LogLine

/-- Whether a request polls for work: a judgehost posts to the last segment
of a path below the judgehosts. -/
def isPoll (method : String) (segments : List String) : Bool :=
  method = "POST" && segments.getLast? = some "next-judging" &&
    segments.tail.dropLast.contains "judgehosts"

/-- Level and message for an answer. -/
def kind (method : String) (segments : List String) (status : Nat) : LogLevel × String :=
  if 500 ≤ status && status < 600 then (.warn, "Request completed with server error")
  else if 400 ≤ status && status < 500 && status ≠ 404 then
    (.warn, "Request completed with client error")
  else if isPoll method segments then (.debug, "Judgehost poll")
  else (.info, "Request completed")

/-- The line about a request. The query is left out. -/
def ofRequest (method : String) (target : Target) (status : Nat) : LogLine :=
  let (level, message) := kind method target.segments status
  ⟨level, message, method, target.path, status⟩

end LogLine

end JudgeQueue
