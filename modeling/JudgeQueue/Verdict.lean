/-!
# Verdicts

The outcome of one testcase run or of a whole judging. Run verdicts are
ordered by strength, and the verdict of a judging is the strongest among its
runs: a submission is accepted only where every run is.
-/

namespace JudgeQueue

/-- An outcome, strongest first. An undefined error marks an abandoned
judging and is never the outcome of a run. -/
inductive Verdict
  | timeLimitExceeded
  | memoryLimitExceeded
  | runtimeError
  | outputLimitExceeded
  | wrongAnswer
  | compileError
  | accepted
  | undefinedError
deriving DecidableEq, Repr, Inhabited

namespace Verdict

/-- The strength of a verdict, smaller is stronger. An undefined error has
none. -/
def priority : Verdict → Option Nat
  | timeLimitExceeded => some 1
  | memoryLimitExceeded => some 2
  | runtimeError => some 3
  | outputLimitExceeded => some 4
  | wrongAnswer => some 5
  | compileError => some 6
  | accepted => some 9
  | undefinedError => none

/-- The character that a run with this verdict adds to the progress of its
judging: the digit of its priority. -/
def progressChar (v : Verdict) : Option Char :=
  v.priority.map Nat.digitChar

/-- Whether a run may have this verdict. -/
def isRunVerdict (v : Verdict) : Bool :=
  v.priority.isSome

/-- Whether this is the verdict of a correct solution. -/
def isAccepted (v : Verdict) : Bool :=
  v = accepted

/-- Whether a judging with this verdict counts in the statistics. -/
def isCounted (v : Verdict) : Bool :=
  v ≠ undefinedError

/-- The stronger of two verdicts, the first one if they are equally
strong. A verdict without priority gives way to any other. -/
def stronger (v w : Verdict) : Verdict :=
  match v.priority, w.priority with
  | some p, some q => if q < p then w else v
  | none, some _ => w
  | _, none => v

/-- The strongest of some verdicts; those without priority are left out. -/
def reduce (vs : List Verdict) : Option Verdict :=
  match vs.filter isRunVerdict with
  | [] => none
  | v :: rest => some (rest.foldl stronger v)

/-- The short code of listings. -/
def code : Verdict → String
  | timeLimitExceeded => "TLE"
  | memoryLimitExceeded => "MLE"
  | runtimeError => "RTE"
  | outputLimitExceeded => "OLE"
  | wrongAnswer => "WA"
  | compileError => "CE"
  | accepted => "AC"
  | undefinedError => "UE"

/-- The name by which a verdict is stored and sent. -/
def name : Verdict → String
  | timeLimitExceeded => "time_limit_exceeded"
  | memoryLimitExceeded => "memory_limit_exceeded"
  | runtimeError => "runtime_error"
  | outputLimitExceeded => "output_limit_exceeded"
  | wrongAnswer => "wrong_answer"
  | compileError => "compile_error"
  | accepted => "accepted"
  | undefinedError => "undefined_error"

/-- The verdict of a name. -/
def ofName? : String → Option Verdict
  | "time_limit_exceeded" => some timeLimitExceeded
  | "memory_limit_exceeded" => some memoryLimitExceeded
  | "runtime_error" => some runtimeError
  | "output_limit_exceeded" => some outputLimitExceeded
  | "wrong_answer" => some wrongAnswer
  | "compile_error" => some compileError
  | "accepted" => some accepted
  | "undefined_error" => some undefinedError
  | _ => none

end Verdict

end JudgeQueue
