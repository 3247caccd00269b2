import JudgeQueue.Blobs
/-!
# Staging files

How a directory tree takes a blob so that no reader finds a part of it: the data
goes to a file of its own, and that file is then moved to the path of the blob.
Each step is one call of the file system, and one that fails leaves the tree as
it was.
-/

namespace JudgeQueue

namespace Entries

variable {α β : Type} [DecidableEq α]

/-- The entries of all keys but one. -/
def without (es : Entries α β) (a : α) : Entries α β :=
  es.filter fun e => e.1 ≠ a

end Entries

/-- Why a step on a directory tree fails. -/
inductive StepError
  | refused (e : FileError)
  /-- There is nothing at the path, or no directory that it could be in. -/
  | missing
deriving DecidableEq, Repr

namespace FileTree

/-- Makes a directory and those that lead to it, as far as they are missing. -/
def makeDirectories (t : FileTree) (p : Path) : Except StepError FileTree :=
  if t.files.any fun f => f.1 = p then .error (.refused .alreadyExists)
  else if t.isBlocked p then .error (.refused .notDirectory)
  else .ok { t with directories := p :: t.directories }

/-- Writes a file, on top of what it held. -/
def create (t : FileTree) (p : Path) (data : Bytes) : Except StepError FileTree :=
  if t.isBlocked p then .error (.refused .notDirectory)
  else if t.isDirectory p then .error (.refused .isDirectory)
  else if t.isDirectory p.dropLast then .ok { t with files := t.files.put p data }
  else .error .missing

/-- Removes a file; the directory that it was in stays. -/
def remove (t : FileTree) (p : Path) : Except StepError FileTree :=
  if t.isBlocked p then .error (.refused .notDirectory)
  else if t.isDirectory p then .error (.refused .isDirectory)
  else match t.files.get? p with
    | none => .error .missing
    | some _ => .ok ⟨t.files.without p, p.dropLast :: t.directories⟩

/-- Moves a file to another path, in place of the file there. -/
def move (t : FileTree) (p q : Path) : Except StepError FileTree :=
  match t.files.get? p with
  | none => .error .missing
  | some data =>
    if t.isBlocked q then .error (.refused .notDirectory)
    else if t.isDirectory q then .error (.refused .isDirectory)
    else if t.isDirectory q.dropLast then
      .ok ⟨(t.files.without p).put q data, p.dropLast :: t.directories⟩
    else .error .missing

/-- Removes a file, if there is one. -/
def discard (t : FileTree) (p : Path) : FileTree :=
  match t.remove p with
  | .ok t => t
  | .error _ => t

/-- The directory of unfinished files. -/
def temporary : String := ".tmp"

/-- A tree in which nothing has been kept so far. -/
def opened : FileTree where
  directories := [[temporary]]

/-- Keeps data at a path: makes its directory, writes the data to an unfinished
file, and moves that to the path. An unfinished file does not outlast a failure. -/
def stage (t : FileTree) (name : String) (p : Path) (data : Bytes) :
    Except StepError Unit × FileTree :=
  match t.makeDirectories p.dropLast with
  | .error e => (.error e, t)
  | .ok made =>
    match made.create [temporary, name] data with
    | .error e => (.error e, made.discard [temporary, name])
    | .ok written =>
      match written.move [temporary, name] p with
      | .error e => (.error e, written.discard [temporary, name])
      | .ok moved => (.ok (), moved)

end FileTree

end JudgeQueue
