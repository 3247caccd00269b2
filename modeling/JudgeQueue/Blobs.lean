import JudgeQueue.Blob
/-!
# Blob stores

Two ways to keep blobs: in memory, by key, and as files, by path. A file
system admits no file where a directory stands, so only there an access can
fail.
-/

namespace JudgeQueue

/-- A map from keys to values, one entry a key. -/
abbrev Entries (α β : Type) := List (α × β)

namespace Entries

variable {α β : Type} [DecidableEq α]

/-- The value of a key. -/
def get? (es : Entries α β) (a : α) : Option β :=
  (es.find? fun e => e.1 = a).map (·.2)

/-- The entries with a value for a key, which replaces its value so far. -/
def put (es : Entries α β) (a : α) (b : β) : Entries α β :=
  (a, b) :: es.filter fun e => e.1 ≠ a

end Entries

/-- Why a file system refuses an access. -/
inductive FileError
  /-- A directory stands at the path. -/
  | isDirectory
  /-- A file stands where a directory further up is needed. -/
  | notDirectory
  /-- A file stands where the directory is to be made. -/
  | alreadyExists
deriving DecidableEq, Repr

/-- The system's text for a refusal. -/
def FileError.message : FileError → String
  | isDirectory => "Is a directory (os error 21)"
  | notDirectory => "Not a directory (os error 20)"
  | alreadyExists => "File exists (os error 17)"

/-- A directory tree: its files, and paths of further directories. The
directories that lead to a file or to a directory exist too. -/
structure FileTree where
  files : Entries Path Bytes := []
  directories : List Path := []

namespace FileTree

/-- Whether a path leads to another one further down. -/
def leadsTo (p q : Path) : Bool :=
  p.isPrefixOf q && p ≠ q

/-- Whether a directory stands at a path. -/
def isDirectory (t : FileTree) (p : Path) : Bool :=
  t.directories.any (fun q => p.isPrefixOf q) || t.files.any fun f => leadsTo p f.1

/-- Whether a file stands where the path needs a directory. -/
def isBlocked (t : FileTree) (p : Path) : Bool :=
  t.files.any fun f => leadsTo f.1 p

/-- Reads the file of a path. -/
def read (t : FileTree) (p : Path) : Except FileError (Option Bytes) :=
  if t.isBlocked p then .error .notDirectory
  else if t.isDirectory p then .error .isDirectory
  else .ok (t.files.get? p)

/-- Makes the directories of a path and moves a finished file there. -/
def write (t : FileTree) (p : Path) (data : Bytes) : Except FileError FileTree :=
  if t.files.any fun f => f.1 = p.dropLast then .error .alreadyExists
  else if t.isBlocked p then .error .notDirectory
  else if t.isDirectory p then .error .isDirectory
  else .ok { t with files := t.files.put p data }

end FileTree

/-- A blob store. -/
inductive Blobs
  | memory (blobs : Entries BlobKey Bytes)
  | files (tree : FileTree)

namespace Blobs

instance : Inhabited Blobs := ⟨memory []⟩

/-- The blob of a key. -/
def get (b : Blobs) (k : BlobKey) : Except FileError (Option Bytes) :=
  match b with
  | memory blobs => .ok (blobs.get? k)
  | files tree => tree.read k.segments

/-- Keeps a blob under a key. -/
def put (b : Blobs) (k : BlobKey) (data : Bytes) : Except FileError Blobs :=
  match b with
  | memory blobs => .ok (memory (blobs.put k data))
  | files tree => (tree.write k.segments data).map files

/-- How many blobs are kept in memory. -/
def count? : Blobs → Option Nat
  | memory blobs => some blobs.length
  | files _ => none

end Blobs

end JudgeQueue
