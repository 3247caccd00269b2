import JudgeQueue.Text.Digest
/-!
# Problems, languages, executables and testcases

What contest administration supplies. A problem and a language can be
switched off; a judging of either is then not handed out.
-/

namespace JudgeQueue

/-- A problem as judging needs it. Limits are in seconds and kilobytes. -/
structure Problem where
  id : Int
  name : String
  timeLimit : Float
  memoryLimit : Option Int
  outputLimit : Option Int
  /-- The executable that runs a solution, where it is not the default. -/
  runScript : Option String
  /-- The executable that compares output, where it is not the default. -/
  compareScript : Option String
  allowJudge : Bool
deriving DecidableEq, Repr

/-- A programming language. -/
structure Language where
  id : String
  name : String
  compileScript : String
  timeFactor : Float
  allowJudge : Bool
deriving DecidableEq, Repr

/-- A script that judgehosts run. -/
structure Executable where
  id : String
  description : String
  contentHash : String
deriving DecidableEq, Repr

/-- An executable with the hash of its content. -/
def Executable.ofContent (id description : String) (content : Bytes) : Executable :=
  ⟨id, description, Sha256.hex content⟩

/-- A testcase of a problem. Its input and output are kept as blobs. -/
structure Testcase where
  id : Int
  problemId : Int
  rank : Int
  /-- The points of an accepted run. -/
  point : Float
  description : Option String
  inputHash : String
  outputHash : String
deriving DecidableEq, Repr

namespace Testcase

/-- Testcases of a problem are graded by rank, and those of one rank by id. -/
def before (a b : Testcase) : Bool :=
  a.rank < b.rank || (a.rank = b.rank && a.id ≤ b.id)

end Testcase

end JudgeQueue
