import JudgeQueue.Staging
/-!
# Files — staging writes

A file that is written aside and moved to its path comes to the same as one that
is written at once. This needs the directory of unfinished files to be there and
to hold no other file; each write leaves it so. `stage_eq` is the equation of
the whole sequence of steps, from which both outcomes are read off: the moved
file is where it would be written, and a refusal is that of the write, with the
tree as it was.
-/

namespace JudgeQueue

namespace FileTree

variable {t u : FileTree} {p q : Path}

/-! ## What leads to a path -/

theorem leadsTo_iff : leadsTo p q = true ↔ p <+: q ∧ p ≠ q := by
  simp [leadsTo]

/-- What leads to a path is its directory, or leads there. -/
theorem leadsTo_iff_prefix_dropLast (hq : q ≠ []) : leadsTo p q = true ↔ p <+: q.dropLast := by
  rw [leadsTo_iff]
  obtain ⟨rest, last, rfl⟩ : ∃ rest last, q = rest ++ [last] :=
    ⟨_, _, (List.dropLast_concat_getLast hq).symm⟩
  rw [List.dropLast_concat, List.prefix_concat_iff]
  refine ⟨fun h => h.1.resolve_left h.2, fun h => ⟨.inr h, fun heq => ?_⟩⟩
  have hle := h.length_le
  rw [heq, List.length_append, List.length_singleton] at hle
  omega

theorem isDirectory_iff : t.isDirectory p = true ↔
    (∃ d ∈ t.directories, p <+: d) ∨ ∃ f ∈ t.files, leadsTo p f.1 = true := by
  simp [isDirectory]

theorem isBlocked_iff : t.isBlocked p = true ↔ ∃ f ∈ t.files, leadsTo f.1 p = true := by
  simp [isBlocked]

/-- What leads to a directory is a directory. -/
theorem isDirectory_above (h : q <+: p) (hp : t.isDirectory p = true) :
    t.isDirectory q = true := by
  rw [isDirectory_iff] at hp ⊢
  rcases hp with ⟨d, hd, hpd⟩ | ⟨f, hf, hlead⟩
  · exact .inl ⟨d, hd, h.trans hpd⟩
  · obtain ⟨hpf, hne⟩ := leadsTo_iff.mp hlead
    refine .inr ⟨f, hf, leadsTo_iff.mpr ⟨h.trans hpf, ?_⟩⟩
    rintro rfl
    exact hne (hpf.eq_of_length_le h.length_le)

/-- A path is blocked by a file in the place of its directory, or further up. -/
theorem isBlocked_iff_dropLast (hp : p ≠ []) : t.isBlocked p = true ↔
    (∃ f ∈ t.files, f.1 = p.dropLast) ∨ t.isBlocked p.dropLast = true := by
  simp only [isBlocked_iff, leadsTo_iff_prefix_dropLast hp, leadsTo_iff]
  constructor
  · rintro ⟨f, hf, hpre⟩
    by_cases heq : f.1 = p.dropLast
    · exact .inl ⟨f, hf, heq⟩
    · exact .inr ⟨f, hf, hpre, heq⟩
  · rintro (⟨f, hf, heq⟩ | ⟨f, hf, hpre, -⟩)
    · exact ⟨f, hf, heq ▸ List.prefix_rfl⟩
    · exact ⟨f, hf, hpre⟩

/-- A file that is put makes directories of what leads to it. -/
theorem isDirectory_put (t : FileTree) (p q : Path) (data : Bytes) :
    ({ t with files := t.files.put p data } : FileTree).isDirectory q = true ↔
      t.isDirectory q = true ∨ leadsTo q p = true := by
  simp only [isDirectory_iff, Entries.put, List.mem_cons, List.mem_filter, decide_eq_true_eq,
    exists_eq_or_imp]
  constructor
  · rintro (hd | hp | ⟨f, ⟨hf, -⟩, hlead⟩)
    · exact .inl (.inl hd)
    · exact .inr hp
    · exact .inl (.inr ⟨f, hf, hlead⟩)
  · rintro ((hd | ⟨f, hf, hlead⟩) | hp)
    · exact .inl hd
    · by_cases heq : f.1 = p
      · exact .inr (.inl (heq ▸ hlead))
      · exact .inr (.inr ⟨f, ⟨hf, heq⟩, hlead⟩)
    · exact .inr (.inl hp)

/-! ## The directory of unfinished files -/

/-- A path that does not start in the directory of unfinished files. -/
def Outside (p : Path) : Prop :=
  ∃ s rest, p = s :: rest ∧ s ≠ temporary

theorem Outside.ne_nil (h : Outside p) : p ≠ [] := by
  obtain ⟨s, rest, rfl, -⟩ := h
  exact List.cons_ne_nil s rest

theorem Outside.not_above_temporary (h : Outside p) (rest : Path) : ¬ p <+: temporary :: rest := by
  obtain ⟨s, rest', rfl, hs⟩ := h
  exact fun hpre => hs (List.cons_prefix_cons.mp hpre).1

theorem Outside.not_temporary_above (h : Outside p) (rest : Path) : ¬ temporary :: rest <+: p := by
  obtain ⟨s, rest', rfl, hs⟩ := h
  exact fun hpre => hs (List.cons_prefix_cons.mp hpre).1.symm

theorem Outside.dropLast (h : Outside p) : p.dropLast = [] ∨ Outside p.dropLast := by
  obtain ⟨s, rest, rfl, hs⟩ := h
  cases rest with
  | nil => exact .inl rfl
  | cons s' rest => exact .inr ⟨s, (s' :: rest).dropLast, rfl, hs⟩

/-- A tree that can take unfinished files: there is a directory for them, and
nothing in it. -/
structure IsReady (t : FileTree) : Prop where
  mem : [temporary] ∈ t.directories
  files : ∀ f ∈ t.files, Outside f.1
  directories : ∀ d ∈ t.directories, d = [] ∨ d = [temporary] ∨ Outside d

theorem isReady_opened : opened.IsReady where
  mem := List.mem_singleton_self _
  files := fun _ hf => absurd hf List.not_mem_nil
  directories := fun _ hd => .inr (.inl (List.mem_singleton.mp hd))

/-- Directories that lead to where a file may be do not get in the way. -/
theorem IsReady.cons (h : t.IsReady) (hp : Outside p) :
    IsReady ⟨t.files, p.dropLast :: t.directories⟩ where
  mem := List.mem_cons_of_mem _ h.mem
  files := h.files
  directories := List.forall_mem_cons.mpr
    ⟨hp.dropLast.imp_right .inr, h.directories⟩

theorem IsReady.put (h : t.IsReady) (hp : Outside p) (data : Bytes) :
    IsReady { t with files := t.files.put p data } where
  mem := h.mem
  files := List.forall_mem_cons.mpr ⟨hp, fun f hf => h.files f (List.mem_filter.mp hf).1⟩
  directories := h.directories

theorem IsReady.isDirectory_above (h : t.IsReady) (hq : q <+: [temporary]) :
    t.isDirectory q = true :=
  isDirectory_iff.mpr (.inl ⟨[temporary], h.mem, hq⟩)

theorem IsReady.not_isDirectory (h : t.IsReady) (name : String) :
    t.isDirectory [temporary, name] = false := by
  rw [Bool.eq_false_iff, ne_eq, isDirectory_iff]
  rintro (⟨d, hd, hpre⟩ | ⟨f, hf, hlead⟩)
  · rcases h.directories d hd with rfl | rfl | hout
    · exact absurd hpre.length_le (by simp)
    · exact absurd hpre.length_le (by simp)
    · exact hout.not_temporary_above _ hpre
  · exact (h.files f hf).not_temporary_above _ (leadsTo_iff.mp hlead).1

theorem IsReady.not_isBlocked (h : t.IsReady) (name : String) :
    t.isBlocked [temporary, name] = false := by
  rw [Bool.eq_false_iff, ne_eq, isBlocked_iff]
  rintro ⟨f, hf, hlead⟩
  exact (h.files f hf).not_above_temporary _ (leadsTo_iff.mp hlead).1

/-- There is nothing to replace where an unfinished file is written. -/
theorem IsReady.without (h : t.IsReady) (name : String) :
    t.files.without [temporary, name] = t.files := by
  refine List.filter_eq_self.mpr fun f hf => decide_eq_true ?_
  rintro heq
  exact (h.files f hf).not_above_temporary [name] (heq ▸ List.prefix_rfl)

/-! ## An unfinished file -/

/-- The tree with an unfinished file in it. -/
def unfinished (t : FileTree) (name : String) (data : Bytes) : FileTree :=
  { t with files := ([temporary, name], data) :: t.files }

theorem create_eq_unfinished (h : t.IsReady) (name : String) (data : Bytes) :
    t.create [temporary, name] data = .ok (t.unfinished name data) := by
  have hput : t.files.put [temporary, name] data = ([temporary, name], data) :: t.files :=
    congrArg _ (h.without name)
  have hdirectory : t.isDirectory [temporary, name].dropLast = true :=
    h.isDirectory_above List.prefix_rfl
  rw [create, h.not_isBlocked, h.not_isDirectory, hdirectory, hput]
  rfl

theorem get?_unfinished (t : FileTree) (name : String) (data : Bytes) :
    (t.unfinished name data).files.get? [temporary, name] = some data := by
  simp [unfinished, Entries.get?]

theorem without_unfinished (h : t.IsReady) (name : String) (data : Bytes) :
    (t.unfinished name data).files.without [temporary, name] = t.files := by
  rw [unfinished, Entries.without, List.filter_cons_of_neg (by simp)]
  exact h.without name

/-- An unfinished file makes no directory, since its own is there already. -/
theorem isDirectory_unfinished (h : t.IsReady) (name : String) (data : Bytes) (q : Path) :
    (t.unfinished name data).isDirectory q = t.isDirectory q := by
  rw [Bool.eq_iff_iff, isDirectory_iff, isDirectory_iff, unfinished]
  simp only [List.mem_cons, exists_eq_or_imp]
  constructor
  · rintro (hd | hlead | hf)
    · exact .inl hd
    · exact isDirectory_iff.mp (h.isDirectory_above
        ((leadsTo_iff_prefix_dropLast (List.cons_ne_nil _ _)).mp hlead))
    · exact .inr hf
  · rintro (hd | hf)
    · exact .inl hd
    · exact .inr (.inr hf)

theorem isBlocked_unfinished (t : FileTree) (name : String) (data : Bytes)
    (hp : [temporary, name] = p ∨ Outside p) :
    (t.unfinished name data).isBlocked p = t.isBlocked p := by
  have hself : leadsTo [temporary, name] p = false := by
    rw [Bool.eq_false_iff, ne_eq, leadsTo_iff]
    rintro ⟨hpre, hne⟩
    exact hp.elim hne fun hout => hout.not_temporary_above _ hpre
  rw [isBlocked, unfinished, List.any_cons, hself, Bool.false_or, isBlocked]

theorem discard_unfinished (h : t.IsReady) (name : String) (data : Bytes) :
    (t.unfinished name data).discard [temporary, name] =
      ⟨t.files, [temporary] :: t.directories⟩ := by
  rw [discard, remove, isBlocked_unfinished t name data (.inl rfl), h.not_isBlocked,
    isDirectory_unfinished h, h.not_isDirectory, get?_unfinished, without_unfinished h]
  rfl

theorem move_unfinished (h : t.IsReady) (hp : Outside p) (name : String) (data : Bytes) :
    (t.unfinished name data).move [temporary, name] p =
      if t.isBlocked p then .error (.refused .notDirectory)
      else if t.isDirectory p then .error (.refused .isDirectory)
      else if t.isDirectory p.dropLast then
        .ok ⟨t.files.put p data, [temporary] :: t.directories⟩
      else .error .missing := by
  rw [move, get?_unfinished]
  simp only [isBlocked_unfinished t name data (.inr hp), isDirectory_unfinished h,
    without_unfinished h]
  rfl

/-! ## Staging -/

/-- The tree with the directories that staging a file leaves. -/
def prepared (t : FileTree) (p : Path) : FileTree :=
  ⟨t.files, [temporary] :: p.dropLast :: t.directories⟩

/-- Where no file stands in the place of its directory, a path is blocked if that is. -/
theorem isBlocked_dropLast (hp : p ≠ []) (hfile : ¬ (t.files.any fun f => f.1 = p.dropLast)) :
    t.isBlocked p = t.isBlocked p.dropLast := by
  rw [Bool.eq_iff_iff, isBlocked_iff_dropLast hp]
  refine or_iff_right fun ⟨f, hf, heq⟩ => hfile ?_
  exact List.any_eq_true.mpr ⟨f, hf, decide_eq_true heq⟩

/-- The directory of a path that is made does not stand at the path. -/
theorem isDirectory_cons_dropLast (hp : p ≠ []) (t : FileTree) :
    isDirectory ⟨t.files, p.dropLast :: t.directories⟩ p = t.isDirectory p := by
  have hpre : p.isPrefixOf p.dropLast = false := by
    rw [Bool.eq_false_iff, ne_eq, List.isPrefixOf_iff_prefix,
      ← leadsTo_iff_prefix_dropLast hp, leadsTo_iff]
    exact fun h => h.2 rfl
  rw [isDirectory, List.any_cons, hpre, Bool.false_or, isDirectory]

/-- **The steps of staging** come to one choice between four outcomes. -/
theorem stage_eq (h : t.IsReady) (hp : Outside p) (name : String) (data : Bytes) :
    t.stage name p data =
      if t.files.any fun f => f.1 = p.dropLast then (.error (.refused .alreadyExists), t)
      else if t.isBlocked p then (.error (.refused .notDirectory), t)
      else if t.isDirectory p then (.error (.refused .isDirectory), t.prepared p)
      else (.ok (), { t.prepared p with files := t.files.put p data }) := by
  rw [stage, makeDirectories]
  by_cases hfile : t.files.any fun f => f.1 = p.dropLast
  · rw [if_pos hfile, if_pos hfile]
  have hblocked := isBlocked_dropLast hp.ne_nil hfile
  rw [if_neg hfile, if_neg hfile, hblocked]
  by_cases hup : t.isBlocked p.dropLast
  · rw [if_pos hup, if_pos hup]
  rw [if_neg hup, if_neg hup]
  -- the directory is made, and nothing else stands in the way of the unfinished file
  have hmade := h.cons hp
  have hfree : isBlocked ⟨t.files, p.dropLast :: t.directories⟩ p = false :=
    hblocked.trans (Bool.eq_false_iff.mpr hup)
  have hdirectory : isDirectory ⟨t.files, p.dropLast :: t.directories⟩ p.dropLast = true :=
    isDirectory_iff.mpr (.inl ⟨_, List.mem_cons_self, List.prefix_rfl⟩)
  simp only [create_eq_unfinished hmade, move_unfinished hmade hp, hfree, hdirectory,
    isDirectory_cons_dropLast hp.ne_nil t, Bool.false_eq_true, if_false, if_true]
  by_cases hdir : t.isDirectory p
  · rw [if_pos hdir, if_pos hdir]
    simp only [discard_unfinished hmade, prepared]
  · rw [if_neg hdir, if_neg hdir]
    rfl

/-- Two trees with the same files and the same directories. -/
structure SameAs (t u : FileTree) : Prop where
  files : t.files = u.files
  isDirectory : ∀ q, t.isDirectory q = u.isDirectory q

theorem SameAs.isBlocked (h : t.SameAs u) (p : Path) : t.isBlocked p = u.isBlocked p := by
  rw [FileTree.isBlocked, h.files, FileTree.isBlocked]

theorem SameAs.read (h : t.SameAs u) (p : Path) : t.read p = u.read p := by
  rw [FileTree.read, h.isBlocked, h.isDirectory, h.files, FileTree.read]

theorem IsReady.prepared (h : t.IsReady) (hp : Outside p) : (t.prepared p).IsReady where
  mem := List.mem_cons_self
  files := h.files
  directories := List.forall_mem_cons.mpr ⟨.inr (.inl rfl), (h.cons hp).directories⟩

/-- What is prepared for a file are the directories that lead to it. -/
theorem isDirectory_prepared (h : t.IsReady) (hp : p ≠ []) (q : Path) :
    (t.prepared p).isDirectory q = true ↔ t.isDirectory q = true ∨ leadsTo q p = true := by
  rw [leadsTo_iff_prefix_dropLast hp, isDirectory_iff, isDirectory_iff]
  simp only [FileTree.prepared, List.mem_cons, exists_eq_or_imp]
  constructor
  · rintro ((htmp | hpre | hd) | hf)
    · exact .inl (isDirectory_iff.mp (h.isDirectory_above htmp))
    · exact .inr hpre
    · exact .inl (.inl hd)
    · exact .inl (.inr hf)
  · rintro ((hd | hf) | hpre)
    · exact .inl (.inr (.inr hd))
    · exact .inr hf
    · exact .inl (.inr (.inl hpre))

/-- **Staging is writing**: on a tree that differs in no file and no directory it
has the same outcome, and the trees that are left do not differ either. -/
theorem SameAs.stage (hsame : t.SameAs u) (h : t.IsReady) (hp : Outside p) (name : String)
    (data : Bytes) :
    (∃ u' t', u.write p data = .ok u' ∧ t.stage name p data = (.ok (), t') ∧
      t'.SameAs u' ∧ t'.IsReady) ∨
    ∃ e t', u.write p data = .error e ∧ t.stage name p data = (.error (.refused e), t') ∧
      t'.SameAs u ∧ t'.IsReady := by
  rw [stage_eq h hp, write, ← hsame.files, ← hsame.isBlocked p, ← hsame.isDirectory p]
  by_cases hfile : t.files.any fun f => f.1 = p.dropLast
  · simp only [if_pos hfile]
    exact .inr ⟨_, _, rfl, rfl, hsame, h⟩
  by_cases hblocked : t.isBlocked p
  · simp only [if_neg hfile, if_pos hblocked]
    exact .inr ⟨_, _, rfl, rfl, hsame, h⟩
  by_cases hdir : t.isDirectory p
  · simp only [if_neg hfile, if_neg hblocked, if_pos hdir]
    -- the directories that were made lead to one that is there
    refine .inr ⟨_, _, rfl, rfl, ⟨hsame.files, fun q => ?_⟩, h.prepared hp⟩
    rw [← hsame.isDirectory q, Bool.eq_iff_iff, isDirectory_prepared h hp.ne_nil]
    exact or_iff_left_of_imp fun hlead => isDirectory_above (leadsTo_iff.mp hlead).1 hdir
  · simp only [if_neg hfile, if_neg hblocked, if_neg hdir]
    refine .inl ⟨_, _, rfl, rfl, ⟨rfl, fun q => ?_⟩, (h.prepared hp).put hp data⟩
    have hput := isDirectory_put (t.prepared p) p q data
    rw [isDirectory_prepared h hp.ne_nil, or_assoc, or_self, hsame.isDirectory q,
      ← isDirectory_put u p q data, ← hsame.files] at hput
    exact Bool.eq_iff_iff.mpr hput

end FileTree

end JudgeQueue
