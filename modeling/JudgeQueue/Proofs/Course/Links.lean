import JudgeQueue.Proofs.Course.Turns
/-!
# The course of the store — links between rows

A judging names the rejudging that it is a candidate of, the judging that it
stands in for, and the judgehost that has claimed it. It keeps the first two
until it is abandoned, which takes them away for good. What it stands in for is
an older attempt at the same submission and no candidate of an open rejudging,
so it is never dropped and no link is left dangling; and a judgehost that is
registered stays so.
-/

namespace JudgeQueue

namespace Judging

/-- What may become of a judging in its links: it keeps them, and is abandoned
only if it was before, or it is abandoned and loses them. -/
structure Passes (j j' : Judging) : Prop where
  id : j'.id = j.id
  links :
    j'.rejudgingId = j.rejudgingId ∧ j'.previousJudgingId = j.previousJudgingId ∧
        (j'.verdict = some .undefinedError ↔ j.verdict = some .undefinedError) ∨
      j'.verdict = some .undefinedError ∧ j'.rejudgingId = none ∧ j'.previousJudgingId = none

variable {hosts : Table Judgehost} {now : Instant} {j j' : Judging}

/-- It keeps its links and its verdict. -/
theorem Passes.of_eq (hid : j'.id = j.id) (hrej : j'.rejudgingId = j.rejudgingId)
    (hprev : j'.previousJudgingId = j.previousJudgingId) (hv : j'.verdict = j.verdict) :
    j.Passes j' :=
  ⟨hid, .inl ⟨hrej, hprev, by rw [hv]⟩⟩

/-- It keeps its links, and ends with a result if it ends. -/
theorem Passes.of_result (hid : j'.id = j.id) (hrej : j'.rejudgingId = j.rejudgingId)
    (hprev : j'.previousJudgingId = j.previousJudgingId) (hv : j.verdict = none)
    (hv' : j'.verdict ≠ some .undefinedError) : j.Passes j' := by
  refine ⟨hid, .inl ⟨hrej, hprev, iff_of_false hv' ?_⟩⟩
  rw [hv]
  exact Option.some_ne_none _ ∘ Eq.symm

instance : Lineage Passes where
  refl _ := .of_eq rfl rfl rfl rfl
  trans {a b c} h h' := by
    refine ⟨h'.id.trans h.id, ?_⟩
    rcases h'.links with ⟨hrej', hprev', hv'⟩ | hlost'
    · rw [hrej', hprev', hv']
      exact h.links
    · exact .inr hlost'
  key_eq h := h.id.symm

namespace Turns

/-- **A judging keeps its links** until it is abandoned. -/
theorem passes (h : j.Turns hosts now j') (hs : j.Shaped) : j.Passes j' := by
  cases h with
  | flagged | claimed => exact .of_eq rfl rfl rfl rfl
  | compiled hl success output =>
    cases success with
    | true => exact .of_eq rfl rfl rfl rfl
    | false =>
      exact .of_result rfl rfl rfl (hs.held hl).2.2.2 fun hv => by cases hv
  | graded hl hruns testcases text =>
    unfold Grading.graded
    simp only
    split
    · next hcomplete =>
      -- its runs have come to a verdict of their own
      obtain ⟨v, hv, hne⟩ := Summary.exists_finalVerdict hcomplete hruns
      refine .of_result rfl rfl rfl (hs.held hl).2.2.2 fun hv' => hne (Option.some.inj ?_)
      exact hv.symm.trans hv'
    · exact .of_eq rfl rfl rfl rfl
  | abandoned => exact ⟨rfl, .inr ⟨rfl, rfl, rfl⟩⟩

/-- A judgehost that a judging names was named before, or is known. -/
theorem server (h : j.Turns hosts now j') {hostname : String} (hname : j'.server = some hostname) :
    j.server = some hostname ∨ hosts.contains hostname = true := by
  cases h with
  | flagged | abandoned => exact .inl hname
  | claimed hl hhost =>
    cases hname
    exact .inr hhost
  | compiled hl success => cases success <;> exact .inl hname
  | graded hl hruns testcases text =>
    unfold Grading.graded at hname
    simp only at hname
    split at hname <;> exact .inl hname

end Turns

end Judging

namespace Store

/-- A judging that no rejudging will drop: it is no candidate of an open
one. -/
def Stays (s : Store) (p : Judging) : Prop :=
  ∀ q ∈ s.rejudgings, q.applied = none → p.rejudgingId ≠ some q.id

/-- What a judging names is there: if it is abandoned it names nothing, what it
stands in for is an older attempt at its submission that stays, and its
judgehost is registered. -/
structure Links (s : Store) (j : Judging) : Prop where
  abandoned : j.verdict = some .undefinedError → j.rejudgingId = none ∧ j.previousJudgingId = none
  previous : ∀ id, j.previousJudgingId = some id →
    ∃ p ∈ s.judgings, p.id = id ∧ p.id < j.id ∧ p.submissionId = j.submissionId ∧ s.Stays p
  server : ∀ hostname, j.server = some hostname → s.judgehosts.contains hostname = true

/-- Nothing that a judging names is missing. -/
def Linked (s : Store) : Prop :=
  ∀ j ∈ s.judgings, s.Links j

variable {s s' : Store}

/-- An active judging is no candidate of an open rejudging. -/
theorem Sound.stays_of_active (hs : s.Sound) {j : Judging} (hj : j ∈ s.judgings)
    (hact : j.active = true) : s.Stays j := by
  intro q hq hopen hid
  rw [(hs.membership.candidate q hq hopen j hj hid).1] at hact
  cases hact

section Turns

variable {now : Instant} (hs : s.OnCourse) (h : s.Turns now s')

include hs h

/-- A judging whose id was in use before is what has become of that one. -/
theorem OnCourse.turns_of_id {a b : Judging} (ha : a ∈ s.judgings) (hb : b ∈ s'.judgings)
    (hid : b.id = a.id) : a.Turns s.judgehosts now b := by
  rcases h.rows b hb with ⟨c, hc, hturn⟩ | ⟨new, -, rfl⟩
  · rwa [judging_eq hc ha (hturn.id.symm.trans hid)] at hturn
  · have hle := hs.sound.numbered.judging_le a ha
    have hnew : s.lastJudging + 1 = a.id := hid
    omega

/-- **Judgings keep their links** along turns. -/
theorem OnCourse.grows_passes (hs' : s'.OnCourse) :
    s.judgings.Grows Judging.Passes s.lastJudging s'.judgings s'.lastJudging where
  le := h.lastJudging
  old b hb hle := by
    rcases h.rows b hb with ⟨a, ha, hturn⟩ | ⟨new, -, rfl⟩
    · exact ⟨a, ha, hturn.passes (hs.shaped a ha)⟩
    · have hle : s.lastJudging + 1 ≤ s.lastJudging := hle
      omega
  drawn _ := hs'.sound.numbered.judging_le

/-- A judging that no rejudging will drop is not dropped, and will not be. -/
theorem OnCourse.exists_stays {p : Judging} (hp : p ∈ s.judgings) (hstays : s.Stays p) :
    ∃ p' ∈ s'.judgings, p'.id = p.id ∧ p'.submissionId = p.submissionId ∧ s'.Stays p' := by
  rcases h.kept p hp with ⟨p', hp', hid⟩ | ⟨q, hq, hopen, hpid⟩
  · have hturn := hs.turns_of_id h hp hp' hid
    refine ⟨p', hp', hid, hturn.submissionId, fun q hq hopen hqid => ?_⟩
    -- it joins no rejudging, and none is opened under an id that it names
    have hpid : p.rejudgingId = some q.id := by
      rcases (hturn.passes (hs.shaped p hp)).links with ⟨hrej, -⟩ | ⟨-, hnone, -⟩
      · exact hrej.symm.trans hqid
      · rw [hnone] at hqid
        cases hqid
    rcases h.rejudgings q hq hopen with ⟨r, hr, hid, hropen⟩ | hfresh
    · exact hstays r hr hropen (hid ▸ hpid)
    · obtain ⟨r, hr, hid⟩ := hs.sound.membership.exists_rejudging p hp q.id hpid
      have hle := hs.sound.numbered.rejudging_le r hr
      omega
  · exact absurd hpid (hstays q hq hopen)

/-- **Every turn leaves the links in place.** -/
theorem OnCourse.linked_turns (hl : s.Linked) : s'.Linked := by
  -- what was stood in for by an older judging is still there
  have hprevious : ∀ {j j' : Judging} {id : Int}, j ∈ s.judgings →
      j.previousJudgingId = some id → j.id ≤ j'.id → j'.submissionId = j.submissionId →
      ∃ p ∈ s'.judgings, p.id = id ∧ p.id < j'.id ∧ p.submissionId = j'.submissionId ∧
        s'.Stays p := by
    intro j j' id hj hprev hle hsub
    obtain ⟨p, hp, hpid, hlt, hpsub, hstays⟩ := (hl j hj).previous id hprev
    obtain ⟨p', hp', hid, hsub', hstays'⟩ := hs.exists_stays h hp hstays
    exact ⟨p', hp', hid.trans hpid, by omega, (hsub'.trans hpsub).trans hsub.symm, hstays'⟩
  intro j' hj'
  rcases h.rows j' hj' with ⟨j, hj, hturn⟩ | ⟨new, hjoins, rfl⟩
  · have hpasses := hturn.passes (hs.shaped j hj)
    refine ⟨fun hv => ?abandoned, fun id hid => ?previous, fun hostname hname => ?server⟩
    case abandoned =>
      rcases hpasses.links with ⟨hrej, hprev, hiff⟩ | ⟨-, hlost⟩
      · rw [hrej, hprev]
        exact (hl j hj).abandoned (hiff.mp hv)
      · exact hlost
    case previous =>
      rcases hpasses.links with ⟨-, hprev, -⟩ | ⟨-, -, hnone⟩
      · exact hprevious hj (hprev.symm.trans hid) (Int.le_of_eq hturn.id.symm) hturn.submissionId
      · rw [hnone] at hid
        cases hid
    case server =>
      rcases hturn.server hname with hbefore | hknown
      · exact h.judgehosts hostname ((hl j hj).server hostname hbefore)
      · exact h.judgehosts hostname hknown
  · refine ⟨fun hv => (by cases hv), fun id hid => ?_, fun hostname hname => (by cases hname)⟩
    obtain ⟨j, hj, hsub, hfrom⟩ := hjoins id hid
    have hle := hs.sound.numbered.judging_le j hj
    have hlt : j.id < (new.queued (s.lastJudging + 1)).id := Int.lt_add_one_iff.mpr hle
    rcases hfrom with hprev | ⟨rfl, hact⟩
    · exact hprevious hj hprev (Int.le_of_lt hlt) hsub.symm
    · obtain ⟨p, hp, hpid, hpsub, hstays⟩ :=
        hs.exists_stays h hj (hs.sound.stays_of_active hj hact)
      exact ⟨p, hp, hpid, hpid ▸ hlt, hpsub.trans hsub, hstays⟩

end Turns

end Store

end JudgeQueue
