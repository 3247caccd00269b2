import JudgeQueue.Proofs.Files.Path
/-!
# Files — a tree refines the memory

A client of a blob store sees the answers to what it reads, and whether what it
writes is taken. On this a store of files does not differ from one in memory:
every access succeeds on both, and with the same answer. The paths of keys all
have the same length, so what stands at one never is in the way of another; and
no two keys have one path, so neither is a blob in the place of another.
-/

namespace JudgeQueue

/-- What a client asks of a blob store. -/
inductive Access
  | get (k : BlobKey)
  | put (k : BlobKey) (data : Bytes)
deriving DecidableEq, Repr

namespace Blobs

/-- The answer to an access, and the store after it. A blob that is kept is
answered with nothing. -/
def access (b : Blobs) : Access → Except FileError (Option Bytes) × Blobs
  | .get k => (b.get k, b)
  | .put k data =>
    match b.put k data with
    | .error e => (.error e, b)
    | .ok b => (.ok none, b)

/-- The answers to some accesses, one after another. -/
def accessAll (b : Blobs) : List Access → List (Except FileError (Option Bytes)) × Blobs
  | [] => ([], b)
  | a :: rest =>
    let answers := (b.access a).2.accessAll rest
    ((b.access a).1 :: answers.1, answers.2)

end Blobs

namespace FileTree

/-- The answer to an access whose unfinished file has the name, and the tree after it. -/
def access (t : FileTree) (name : String) : Access → Except StepError (Option Bytes) × FileTree
  | .get k => ((t.read k.segments).mapError .refused, t)
  | .put k data =>
    match t.stage name k.segments data with
    | (.error e, t) => (.error e, t)
    | (.ok (), t) => (.ok none, t)

/-- The answers to some accesses, one after another, each with the name of its
unfinished file. -/
def accessAll (t : FileTree) :
    List (String × Access) → List (Except StepError (Option Bytes)) × FileTree
  | [] => ([], t)
  | (name, a) :: rest =>
    let answers := (t.access name a).2.accessAll rest
    ((t.access name a).1 :: answers.1, answers.2)

end FileTree

/-! ## Entries under other keys -/

namespace Entries

variable {α β γ : Type} [DecidableEq α] [DecidableEq γ] {f : α → γ}

/-- Entries under other keys. -/
def rename (f : α → γ) (es : Entries α β) : Entries γ β :=
  es.map fun e => (f e.1, e.2)

theorem get?_rename (hf : Function.Injective f) (es : Entries α β) (a : α) :
    (es.rename f).get? (f a) = es.get? a := by
  simp only [get?, rename, List.find?_map, Option.map_map, Function.comp_def, hf.eq_iff]

theorem put_rename (hf : Function.Injective f) (es : Entries α β) (a : α) (b : β) :
    (es.rename f).put (f a) b = (es.put a b).rename f := by
  simp only [put, rename, List.map_cons, List.filter_map, Function.comp_def, ne_eq, hf.eq_iff]

end Entries

/-! ## Steps and runs -/

namespace FileTree

variable {t u : FileTree} {es : Entries BlobKey Bytes}

/-- **One access**: staged, it has the answer of the write at once, and the trees
still do not differ. -/
theorem SameAs.access (hsame : t.SameAs u) (h : t.IsReady) (name : String) (a : Access) :
    ∃ u' t', (Blobs.files u).access a = (((Blobs.files u).access a).1, .files u') ∧
      t.access name a = (((Blobs.files u).access a).1.mapError .refused, t') ∧
      t'.SameAs u' ∧ t'.IsReady := by
  cases a with
  | get k =>
    refine ⟨u, t, rfl, ?_, hsame, h⟩
    rw [FileTree.access, hsame.read]
    rfl
  | put k data =>
    rcases hsame.stage h k.outside_segments name data with
      ⟨u', t', hwrite, hstage, hsame', h'⟩ | ⟨e, t', hwrite, hstage, hsame', h'⟩
    · have hput : (Blobs.files u).access (.put k data) = (.ok none, .files u') := by
        rw [Blobs.access, Blobs.put, hwrite]
        rfl
      rw [FileTree.access, hstage, hput]
      exact ⟨u', t', rfl, rfl, hsame', h'⟩
    · have hput : (Blobs.files u).access (.put k data) = (.error e, .files u) := by
        rw [Blobs.access, Blobs.put, hwrite]
        rfl
      rw [FileTree.access, hstage, hput]
      exact ⟨u, t', rfl, rfl, hsame', h'⟩

/-- **Staging does not show**: any accesses have the same answers, refusals
included, on a tree that stages what is written and on one that writes it at once. -/
theorem SameAs.accessAll (accesses : List (String × Access)) (hsame : t.SameAs u)
    (h : t.IsReady) :
    ∃ u' t', ((Blobs.files u).accessAll (accesses.map Prod.snd)).2 = .files u' ∧
      t.accessAll accesses = (((Blobs.files u).accessAll (accesses.map Prod.snd)).1.map
        (Except.mapError .refused), t') ∧
      t'.SameAs u' ∧ t'.IsReady := by
  induction accesses generalizing t u with
  | nil => exact ⟨u, t, rfl, rfl, hsame, h⟩
  | cons a rest ih =>
    obtain ⟨name, a⟩ := a
    obtain ⟨u₁, t₁, hu₁, ht₁, hsame₁, h₁⟩ := hsame.access h name a
    obtain ⟨u', t', hu', ht', hsame', h'⟩ := ih hsame₁ h₁
    refine ⟨u', t', ?_, ?_, hsame', h'⟩
    · rw [List.map_cons, Blobs.accessAll, hu₁]
      exact hu'
    · rw [List.map_cons, Blobs.accessAll, FileTree.accessAll, ht₁, ht', hu₁]
      rfl

/-- A tree that keeps the blobs of a memory, and has no directory as far down as
blobs are. -/
structure Mirrors (t : FileTree) (es : Entries BlobKey Bytes) : Prop where
  files : t.files = es.rename BlobKey.segments
  directories : ∀ d ∈ t.directories, d.length < 4

theorem mirrors_opened : opened.Mirrors [] where
  files := rfl
  directories := by decide

theorem length_lt_of_leadsTo {p q : Path} (h : leadsTo p q = true) : p.length < q.length := by
  obtain ⟨hpre, hne⟩ := leadsTo_iff.mp h
  exact Nat.lt_of_le_of_ne hpre.length_le fun heq => hne (hpre.eq_of_length heq)

theorem Mirrors.length_files (h : t.Mirrors es) : ∀ f ∈ t.files, f.1.length = 4 := by
  rw [h.files]
  exact List.forall_mem_map.mpr fun e _ => e.1.length_segments

/-- No directory stands where a blob is kept. -/
theorem Mirrors.not_isDirectory (h : t.Mirrors es) (k : BlobKey) :
    t.isDirectory k.segments = false := by
  rw [Bool.eq_false_iff, ne_eq, isDirectory_iff]
  rintro (⟨d, hd, hpre⟩ | ⟨f, hf, hlead⟩)
  · have hle := hpre.length_le
    have hlt := h.directories d hd
    rw [k.length_segments] at hle
    omega
  · have hlt := length_lt_of_leadsTo hlead
    rw [k.length_segments, h.length_files f hf] at hlt
    omega

/-- No blob is in the way of another. -/
theorem Mirrors.not_isBlocked (h : t.Mirrors es) (k : BlobKey) :
    t.isBlocked k.segments = false := by
  rw [Bool.eq_false_iff, ne_eq, isBlocked_iff]
  rintro ⟨f, hf, hlead⟩
  have hlt := length_lt_of_leadsTo hlead
  rw [k.length_segments, h.length_files f hf] at hlt
  omega

theorem Mirrors.read (h : t.Mirrors es) (k : BlobKey) :
    t.read k.segments = .ok (es.get? k) := by
  rw [FileTree.read, h.not_isBlocked, h.not_isDirectory, h.files,
    Entries.get?_rename BlobKey.segments_injective]
  rfl

theorem Mirrors.write (h : t.Mirrors es) (k : BlobKey) (data : Bytes) :
    ∃ t', t.write k.segments data = .ok t' ∧ t'.Mirrors (es.put k data) := by
  have hfile : ¬ (t.files.any fun f => f.1 = k.segments.dropLast) := by
    rw [List.any_eq_true]
    rintro ⟨f, hf, heq⟩
    have hlength := congrArg List.length (of_decide_eq_true heq)
    rw [h.length_files f hf, List.length_dropLast, k.length_segments] at hlength
    omega
  refine ⟨{ t with files := t.files.put k.segments data }, ?_, ?_, h.directories⟩
  · rw [FileTree.write, if_neg hfile, h.not_isBlocked, h.not_isDirectory]
    rfl
  · rw [h.files]
    exact Entries.put_rename BlobKey.segments_injective es k data

/-- **One access** succeeds on a tree that keeps the blobs of a memory, with the
answer of the memory, whose blobs it keeps after it. -/
theorem Mirrors.access (h : t.Mirrors es) (a : Access) :
    ∃ answer es' t', (Blobs.memory es).access a = (.ok answer, .memory es') ∧
      (Blobs.files t).access a = (.ok answer, .files t') ∧ t'.Mirrors es' := by
  cases a with
  | get k => exact ⟨es.get? k, es, t, rfl, by rw [Blobs.access, Blobs.get, h.read], h⟩
  | put k data =>
    obtain ⟨t', hwrite, h'⟩ := h.write k data
    refine ⟨none, es.put k data, t', rfl, ?_, h'⟩
    rw [Blobs.access, Blobs.put, hwrite]
    rfl

/-- **Any accesses** succeed on such a tree, with the answers of the memory. -/
theorem Mirrors.accessAll (accesses : List Access) (h : t.Mirrors es) :
    ∃ (answers : List (Option Bytes)) (es' : Entries BlobKey Bytes) (t' : FileTree),
      (Blobs.memory es).accessAll accesses = (answers.map .ok, .memory es') ∧
      (Blobs.files t).accessAll accesses = (answers.map .ok, .files t') ∧ t'.Mirrors es' := by
  induction accesses generalizing t es with
  | nil => exact ⟨[], es, t, rfl, rfl, h⟩
  | cons a rest ih =>
    obtain ⟨answer, es₁, t₁, hmemory, hfiles, h₁⟩ := h.access a
    obtain ⟨answers, es', t', hmemory', hfiles', h'⟩ := ih h₁
    refine ⟨answer :: answers, es', t', ?_, ?_, h'⟩
    · rw [Blobs.accessAll, hmemory, hmemory']
      rfl
    · rw [Blobs.accessAll, hfiles, hfiles']
      rfl

end FileTree

namespace Blobs

/-- **A store of files refines one in memory**: any reads and writes of blobs,
from empty stores, succeed on both with the same answers, whether the files are
staged or written at once, and leave the same blobs. For the paths of keys are
apart: each key has its own, none leads through another, and none is at or under
the directory of unfinished files. -/
theorem files_refine_memory (accesses : List (String × Access)) :
    (∃ (answers : List (Option Bytes)) (es : Entries BlobKey Bytes) (t staged : FileTree),
      (memory []).accessAll (accesses.map Prod.snd) = (answers.map .ok, memory es) ∧
      (files .opened).accessAll (accesses.map Prod.snd) = (answers.map .ok, files t) ∧
      FileTree.opened.accessAll accesses = (answers.map .ok, staged) ∧
      t.files = es.rename BlobKey.segments ∧ staged.files = es.rename BlobKey.segments) ∧
    (∀ k, Split.text '/' (BlobKey.path k) = k.segments ∧ ∀ s ∈ k.segments, IsName s) ∧
    Function.Injective BlobKey.path ∧
    (∀ k k', ¬ LiesUnder (BlobKey.path k) (BlobKey.path k')) ∧
    ∀ k, BlobKey.path k ≠ FileTree.temporary ∧
      ¬ LiesUnder (BlobKey.path k) FileTree.temporary := by
  refine ⟨?_, fun k => ⟨k.split_path, fun _ => BlobKey.isName_of_mem_segments⟩,
    BlobKey.path_injective, BlobKey.not_liesUnder_path, fun k =>
      ⟨k.path_ne_temporary, k.not_liesUnder_temporary⟩⟩
  obtain ⟨answers, es, t, hmemory, hfiles, hmirrors⟩ :=
    FileTree.mirrors_opened.accessAll (accesses.map Prod.snd)
  obtain ⟨u, staged, hu, hstaged, hsame, -⟩ :=
    FileTree.SameAs.accessAll accesses ⟨rfl, fun _ => rfl⟩ FileTree.isReady_opened
  rw [hfiles] at hu hstaged
  obtain rfl : t = u := files.inj hu
  refine ⟨answers, es, t, staged, hmemory, hfiles, ?_, hmirrors.files,
    hsame.files.trans hmirrors.files⟩
  rw [hstaged, List.map_map]
  rfl

end Blobs

end JudgeQueue
