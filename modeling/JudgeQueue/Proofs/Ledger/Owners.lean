import JudgeQueue.Proofs.Sound.Basic
import JudgeQueue.Proofs.Ledger.Tally
/-!
# The ledger — counted submissions

The tally sums over judgings, but what the statistics are to show is how many
submissions have been judged and how many of them solved their problem. In a
sound store the two are the same: a counted judging is the active one of its
submission, so a submission owns one at most, and each is worth just one
submission.
-/

namespace JudgeQueue

/-- A total of pairs that tell how many rows pass a test, and how many of
these a second one. -/
theorem Table.total_ite {α κ : Type} [Keyed α κ] [Ord κ] {t : Table α} {p q : α → Bool} :
    (t.total fun a => if p a then ((1, if q a then 1 else 0) : Int × Int) else 0) =
      ((t.rows.countP p : Int), (t.rows.countP fun a => p a && q a : Int)) := by
  have hrows : ∀ rows : List α,
      (rows.map fun a => if p a then ((1, if q a then 1 else 0) : Int × Int) else 0).sum =
        ((rows.countP p : Int), (rows.countP fun a => p a && q a : Int)) := by
    intro rows
    induction rows with
    | nil => rfl
    | cons a rest ih =>
      rw [List.map_cons, List.sum_cons, ih, List.countP_cons, List.countP_cons]
      by_cases hp : p a = true <;> by_cases hq : q a = true <;>
        simp [hp, hq, add_comm]
  exact hrows t.rows

namespace Store

/-- Whether a submission owns a judging that passes a test. -/
def owns (s : Store) (r : Submission) (p : Judging → Bool) : Bool :=
  s.judgings.rows.any fun j => j.submissionId = r.id && p j

/-- Whether a submission counts at a key. -/
def countsAt (k : StatisticsKey) (r : Submission) : Bool :=
  !r.ignored && r.statisticsKey = k

/-- How many of the submissions that count at a key own a judging that passes
a test. -/
def owners (s : Store) (k : StatisticsKey) (p : Judging → Bool) : Nat :=
  s.submissions.rows.countP fun r => countsAt k r && s.owns r p

variable {s : Store} {k : StatisticsKey}

theorem owns_iff {r : Submission} {p : Judging → Bool} :
    s.owns r p = true ↔ ∃ j ∈ s.judgings, j.submissionId = r.id ∧ p j = true := by
  rw [owns, List.any_eq_true]
  simp only [Bool.and_eq_true, decide_eq_true_eq]
  exact Iff.rfl

/-- The standing of a submission that is found, and counts. -/
theorem standing_eq_some_iff {id : Int} :
    s.standing id = some k ↔ ∃ r ∈ s.submissions, r.id = id ∧ countsAt k r = true := by
  have hsome : s.standing id = some k ↔
      ∃ r, s.submissions.find? id = some r ∧ countsAt k r = true := by
    rw [standing, Option.bind_eq_some_iff]
    refine exists_congr fun r => and_congr_right fun _ => ?_
    cases hi : r.ignored <;> simp [countsAt, hi]
  rw [hsome]
  refine exists_congr fun r => ?_
  rw [Table.find?_eq_some_iff, and_assoc]
  rfl

/-- **Judgings that no submission owns twice** are as many as the submissions
that own them. -/
theorem countP_owners {p : Judging → Bool}
    (hp : ∀ i ∈ s.judgings, ∀ j ∈ s.judgings, p i = true → p j = true →
      i.submissionId = j.submissionId → i = j) :
    (s.judgings.rows.countP fun j => p j && decide (s.standing j.submissionId = some k)) =
      s.owners k p := by
  refine Table.countP_eq_of_points Judging.submissionId (fun i hi j hj hpi hpj => ?_)
    fun id => ?_
  · rw [Bool.and_eq_true] at hpi hpj
    exact hp i hi j hj hpi.1 hpj.1
  · simp only [Bool.and_eq_true, decide_eq_true_eq, owns_iff, standing_eq_some_iff]
    constructor
    · rintro ⟨j, hj, ⟨hpj, r, hr, hid, hk⟩, rfl⟩
      exact ⟨r, hr, ⟨hk, j, hj, hid.symm, hpj⟩, hid⟩
    · rintro ⟨r, hr, ⟨hk, j, hj, hsub, hpj⟩, rfl⟩
      exact ⟨j, hj, ⟨hpj, r, hr, hsub.symm, hk⟩, hsub⟩

/-- A stronger test is passed by judgings of fewer submissions. -/
theorem owners_mono {p q : Judging → Bool} (h : ∀ j, p j = true → q j = true) :
    s.owners k p ≤ s.owners k q := by
  refine List.countP_mono_left fun r _ hr => ?_
  rw [Bool.and_eq_true, owns_iff] at hr ⊢
  obtain ⟨hk, j, hj, hsub, hp⟩ := hr
  exact ⟨hk, j, hj, hsub, h j hp⟩

namespace Sound

/-- No submission owns two judgings that are counted. -/
theorem counted_eq (h : s.Sound) {i j : Judging} (hi : i ∈ s.judgings) (hj : j ∈ s.judgings)
    (hci : i.counted = true) (hcj : j.counted = true) (hsub : i.submissionId = j.submissionId) :
    i = j :=
  h.authority.active_eq i hi j hj hsub ((h.ordered i hi).counted hci).1
    ((h.ordered j hj).counted hcj).1

/-- What a flagged judging of a sound store is worth: it has ended with a
verdict that counts. -/
theorem flagged_eq (h : s.Sound) {j : Judging} (hj : j ∈ s.judgings) :
    s.flagged k j =
      if (j.counted && decide (s.standing j.submissionId = some k)) = true then
        (1, if decide (j.verdict = some .accepted) = true then 1 else 0)
      else 0 := by
  cases hc : j.counted with
  | false => rw [flagged_eq_zero hc, Bool.false_and, if_neg Bool.false_ne_true]
  | true =>
    obtain ⟨hact, hfin⟩ := (h.ordered j hj).counted hc
    obtain ⟨v, hv, hne⟩ := h.hasResult_of_active hj hact hfin
    have hfinalized : j.isFinalized = true := decide_eq_true hfin
    have hcounted : j.hasCountedVerdict = true := by
      rw [Judging.hasCountedVerdict, hfinalized, hv]
      exact decide_eq_true hne
    have haccepted : j.isAccepted = decide (j.verdict = some .accepted) := by
      rw [Judging.isAccepted, hfinalized, hv, Bool.true_and, Option.any_some, Verdict.isAccepted]
      simp
    rw [flagged, if_pos hc, worth, hcounted, haccepted]
    simp

/-- **The tally counts submissions**: those that own a counted judging, and
those whose counted judging was accepted. -/
theorem tally_eq (h : s.Sound) :
    s.tally k = ((s.owners k Judging.counted : Int),
      (s.owners k fun j => j.counted && decide (j.verdict = some .accepted) : Int)) := by
  have hflagged := Table.total_congr fun j (hj : j ∈ s.judgings) => h.flagged_eq (k := k) hj
  have haccepted : (s.judgings.rows.countP fun j =>
      (j.counted && decide (s.standing j.submissionId = some k)) &&
        decide (j.verdict = some .accepted)) =
      s.judgings.rows.countP fun j => (j.counted && decide (j.verdict = some .accepted)) &&
        decide (s.standing j.submissionId = some k) := by
    congr 1
    funext j
    exact Bool.and_right_comm ..
  rw [tally, hflagged, Table.total_ite, haccepted, countP_owners, countP_owners]
  · intro i hi j hj hpi hpj hsub
    rw [Bool.and_eq_true] at hpi hpj
    exact h.counted_eq hi hj hpi.1 hpj.1 hsub
  · exact fun i hi j hj hci hcj => h.counted_eq hi hj hci hcj

end Sound

end Store

end JudgeQueue
