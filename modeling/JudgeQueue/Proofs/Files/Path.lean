import JudgeQueue.Proofs.Files.Staging
import JudgeQueue.Text.Split
import Mathlib.Logic.Function.Basic
/-!
# Files — the paths of blobs

A key's path is a text, and a directory tree reads it as the segments between
its slashes. No segment has a slash in it and none is one of the names that mean
another directory, so the tree reads back the segments that the key has. Keys
differ in their segments, and all have the same number of them: so no two keys
have one path, and the path of none leads through the path of another.
-/

namespace JudgeQueue

/-! ## Splitting what was joined -/

namespace Split

variable {sep : Char} {segs : List String}

theorem parts_eq_splitOn (sep : Char) (cs : List Char) : parts sep cs = cs.splitOn sep := by
  induction cs with
  | nil => rfl
  | cons c cs ih =>
    obtain ⟨part, rest, hsplit⟩ := List.exists_cons_of_ne_nil (List.splitOn_ne_nil sep cs)
    rw [parts, ih, List.splitOn_cons_eq_if_modifyHead, hsplit]
    simp only [beq_iff_eq]
    split <;> rfl

/-- **A separator** ends the parts of what is before it. -/
theorem text_append (s t : String) :
    text sep (s ++ String.singleton sep ++ t) = text sep s ++ text sep t := by
  simp only [text, parts_eq_splitOn, String.toList_append, String.toList_singleton,
    List.append_assoc, List.singleton_append, List.splitOn_append_cons_self, List.map_append]

/-- **Parts that are joined** are split again, if the separator is in none of them. -/
theorem text_intercalate (hne : segs ≠ []) (h : ∀ s ∈ segs, sep ∉ s.toList) :
    text sep ((String.singleton sep).intercalate segs) = segs := by
  have hparts : ∀ cs ∈ segs.map String.toList, sep ∉ cs := List.forall_mem_map.mpr h
  have hparts_ne : segs.map String.toList ≠ [] := fun hnil => hne (List.map_eq_nil_iff.mp hnil)
  rw [text, parts_eq_splitOn, String.toList_intercalate, String.toList_singleton,
    List.splitOn_intercalate sep hparts hparts_ne, List.map_map]
  simp [Function.comp_def]

end Split

/-! ## Segments -/

/-- What may be one segment of a path: there is no slash in it, and it does not name
the directory that it stands in or the one above. -/
def IsName (s : String) : Prop :=
  '/' ∉ s.toList ∧ s ≠ "" ∧ s ≠ "." ∧ s ≠ ".."

theorem toList_toString_ofNat (m : Nat) :
    (toString (Int.ofNat m)).toList = Nat.toDigits 10 m :=
  Nat.toList_repr

theorem toList_toString_negSucc (m : Nat) :
    (toString (Int.negSucc m)).toList = '-' :: Nat.toDigits 10 (m + 1) := by
  change ("-" ++ (m + 1).repr).toList = _
  rw [String.toList_append, Nat.toList_repr]
  rfl

theorem isDigit_of_mem_digits {m : Nat} {c : Char} (h : c ∈ Nat.toDigits 10 m) :
    c.isDigit = true :=
  Nat.isDigit_of_mem_toDigits (by decide) (by decide) h

/-- A numeral has digits in it, and besides them a minus at most. -/
theorem digits_toString (n : Int) :
    (∃ c ∈ (toString n).toList, c.isDigit = true) ∧
      ∀ c ∈ (toString n).toList, c.isDigit = true ∨ c = '-' := by
  have hsome : ∀ m : Nat, ∃ c ∈ Nat.toDigits 10 m, c.isDigit = true := by
    intro m
    obtain ⟨c, hc⟩ := List.exists_mem_of_ne_nil _ (Nat.toDigits_ne_nil (b := 10) (n := m))
    exact ⟨c, hc, isDigit_of_mem_digits hc⟩
  cases n with
  | ofNat m =>
    rw [toList_toString_ofNat]
    exact ⟨hsome m, fun c hc => .inl (isDigit_of_mem_digits hc)⟩
  | negSucc m =>
    obtain ⟨c, hc, hdigit⟩ := hsome (m + 1)
    rw [toList_toString_negSucc]
    refine ⟨⟨c, List.mem_cons_of_mem _ hc, hdigit⟩, fun d hd => ?_⟩
    rcases List.mem_cons.mp hd with rfl | hd
    · exact .inr rfl
    · exact .inl (isDigit_of_mem_digits hd)

/-- A number is read back from its digits. -/
theorem toDigits_injective : Function.Injective (Nat.toDigits 10) := by
  intro m m' h
  rw [← Nat.ofDigitChars_ten_toDigits (n := m), h, Nat.ofDigitChars_ten_toDigits]

/-- **No two numbers have one numeral.** -/
theorem toString_injective : Function.Injective (toString : Int → String) := by
  -- a minus is no digit, so the sign shows
  have hsign : ∀ m m' : Nat, Nat.toDigits 10 m ≠ '-' :: Nat.toDigits 10 m' := by
    intro m m' h
    have hdigit := isDigit_of_mem_digits (h ▸ List.mem_cons_self)
    exact absurd hdigit (by decide)
  intro n n' h
  have hlist := congrArg String.toList h
  cases n with
  | ofNat m =>
    cases n' with
    | ofNat m' =>
      rw [toList_toString_ofNat, toList_toString_ofNat] at hlist
      exact congrArg Int.ofNat (toDigits_injective hlist)
    | negSucc m' =>
      rw [toList_toString_ofNat, toList_toString_negSucc] at hlist
      exact absurd hlist (hsign m _)
  | negSucc m =>
    cases n' with
    | ofNat m' =>
      rw [toList_toString_ofNat, toList_toString_negSucc] at hlist
      exact absurd hlist.symm (hsign m' _)
    | negSucc m' =>
      rw [toList_toString_negSucc, toList_toString_negSucc, List.cons.injEq] at hlist
      exact congrArg Int.negSucc (Nat.succ.inj (toDigits_injective hlist.2))

theorem isName_toString (n : Int) : IsName (toString n) := by
  obtain ⟨⟨c, hc, hdigit⟩, hall⟩ := digits_toString n
  have hne : ∀ s : String, s.toList.any Char.isDigit = false → toString n ≠ s := by
    rintro s hs rfl
    exact List.any_eq_false.mp hs c hc hdigit
  refine ⟨fun hslash => ?_, hne "" (by decide), hne "." (by decide), hne ".." (by decide)⟩
  rcases hall '/' hslash with h | h <;> exact absurd h (by decide)

namespace BlobKey

variable {k k' : BlobKey}

theorem isName_of_mem_segments {s : String} (h : s ∈ k.segments) : IsName s := by
  have hrun : ∀ kind : RunOutputKind, IsName kind.name := by
    intro kind
    cases kind <;> exact ⟨by decide, by decide, by decide, by decide⟩
  have hhalf : ∀ kind : TestcaseKind, IsName kind.name := by
    intro kind
    cases kind <;> exact ⟨by decide, by decide, by decide, by decide⟩
  have hfirst : IsName "runs" ∧ IsName "testcases" :=
    ⟨⟨by decide, by decide, by decide, by decide⟩, ⟨by decide, by decide, by decide, by decide⟩⟩
  have hall : ∀ s ∈ k.segments, IsName s := by
    cases k with
    | runOutput judgingId runId kind =>
      simp only [segments, List.forall_mem_cons, List.not_mem_nil, false_imp_iff, implies_true,
        and_true]
      exact ⟨hfirst.1, isName_toString judgingId, isName_toString runId, hrun kind⟩
    | testcase problemId testcaseId kind =>
      simp only [segments, List.forall_mem_cons, List.not_mem_nil, false_imp_iff, implies_true,
        and_true]
      exact ⟨hfirst.2, isName_toString problemId, isName_toString testcaseId, hhalf kind⟩
  exact hall s h

theorem length_segments (k : BlobKey) : k.segments.length = 4 := by
  cases k <;> rfl

/-- **The tree reads back** the segments of a key from its path. -/
theorem split_path (k : BlobKey) : Split.text '/' k.path = k.segments :=
  Split.text_intercalate (List.ne_nil_of_length_eq_add_one k.length_segments)
    fun _ hs => (isName_of_mem_segments hs).1

/-- **Keys differ in their segments.** -/
theorem segments_injective : Function.Injective segments := by
  have hrun : Function.Injective RunOutputKind.name := by
    intro a b
    cases a <;> cases b <;> decide
  have hhalf : Function.Injective TestcaseKind.name := by
    intro a b
    cases a <;> cases b <;> decide
  intro k k' h
  cases k <;> cases k' <;> simp only [segments, List.cons.injEq, and_true] at h
  case runOutput.runOutput =>
    obtain ⟨-, hj, hr, hk⟩ := h
    rw [toString_injective hj, toString_injective hr, hrun hk]
  case testcase.testcase =>
    obtain ⟨-, hp, ht, hk⟩ := h
    rw [toString_injective hp, toString_injective ht, hhalf hk]
  all_goals exact absurd h.1 (by decide)

/-- **No two keys have one path.** -/
theorem path_injective : Function.Injective path := by
  intro k k' h
  refine segments_injective ?_
  rw [← split_path k, ← split_path k', h]

end BlobKey

/-- A path lies under another one: it leads through it, and further down. -/
def LiesUnder (p q : String) : Prop :=
  ∃ rest, p = q ++ "/" ++ rest

theorem LiesUnder.split {p q : String} (h : LiesUnder p q) :
    ∃ rest, rest ≠ [] ∧ Split.text '/' p = Split.text '/' q ++ rest := by
  obtain ⟨rest, rfl⟩ := h
  refine ⟨Split.text '/' rest, ?_, Split.text_append q rest⟩
  rw [Split.text, ne_eq, List.map_eq_nil_iff, Split.parts_eq_splitOn]
  exact List.splitOn_ne_nil '/' _

namespace BlobKey

/-- **No path leads through another.** -/
theorem not_liesUnder_path (k k' : BlobKey) : ¬ LiesUnder k.path k'.path := by
  intro h
  obtain ⟨rest, hne, hsplit⟩ := h.split
  have hlength := congrArg List.length hsplit
  rw [split_path, split_path, List.length_append, length_segments, length_segments] at hlength
  exact hne (List.length_eq_zero_iff.mp (by omega))

/-- No key's segments start in the directory of unfinished files. -/
theorem outside_segments (k : BlobKey) : FileTree.Outside k.segments := by
  cases k with
  | runOutput => exact ⟨_, _, rfl, by decide⟩
  | testcase => exact ⟨_, _, rfl, by decide⟩

theorem split_temporary : Split.text '/' FileTree.temporary = [FileTree.temporary] := by
  decide

/-- **No path is the directory** of unfinished files, -/
theorem path_ne_temporary (k : BlobKey) : k.path ≠ FileTree.temporary := by
  intro h
  have hsplit : k.segments = [FileTree.temporary] := by rw [← split_path, h, split_temporary]
  exact k.outside_segments.not_temporary_above [] (hsplit ▸ List.prefix_rfl)

/-- **and none lies under it.** -/
theorem not_liesUnder_temporary (k : BlobKey) : ¬ LiesUnder k.path FileTree.temporary := by
  intro h
  obtain ⟨rest, -, hsplit⟩ := h.split
  rw [split_path, split_temporary] at hsplit
  exact k.outside_segments.not_temporary_above [] ⟨rest, hsplit.symm⟩

end BlobKey

end JudgeQueue
