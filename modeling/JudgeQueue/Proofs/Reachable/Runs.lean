import JudgeQueue.Proofs.Graded.Progress
import JudgeQueue.Proofs.Reachable.Parts
/-!
# Reachable worlds — runs

No table refers to another by force, so that runs belong somewhere rests on
what the requests check. It holds of every store that arises from supplied
rows: a run is the result of one testcase within one judging, and while a
judging is held its text lists the results so far.
-/

namespace JudgeQueue

namespace Store

/-- The run table is in order: its rows refer to what is there and carry
verdicts that runs have, no testcase is run twice within a judging, and the
ids come from the sequence. The text of a judging that is held has one
character for each of its runs, which are listed in the order of their ids. -/
structure RunsInOrder (s : Store) : Prop where
  owner : ∀ n ∈ s.runs, ∃ j ∈ s.judgings, j.id = n.judgingId ∧
    ∃ r ∈ s.submissions, r.id = j.submissionId ∧
      ∃ t ∈ s.testcases, t.id = n.testcaseId ∧ t.problemId = r.problemId
  priority : ∀ n ∈ s.runs, n.verdict.priority ≠ none
  testcase_eq : ∀ m ∈ s.runs, ∀ n ∈ s.runs, m.judgingId = n.judgingId →
    m.testcaseId = n.testcaseId → m = n
  id_le : ∀ n ∈ s.runs, n.id ≤ s.lastRun
  ascending : ∀ id, ((s.runsOf id).map Run.id).Pairwise (· < ·)
  spelled : ∀ j ∈ s.judgings, j.lifecycle = .claimed →
    j.runVerdicts.toList.map some = (s.runsOf j.id).map (fun n => n.verdict.progressChar) ∧
      j.runVerdicts.length = (s.runsOf j.id).length

variable {s s' : Store} {rows : Seed}

theorem spelled_seed : (({} : Store).seed rows).Spelled :=
  fun _ hj => absurd hj Table.not_mem_empty

/-- Every trace leaves the texts as the runs spell them. -/
theorem Sound.spelled_trace {now : Instant} {es : List Event} (hs : s.Sound) (hg : s.Graded)
    (hsp : s.Spelled) (ht : Trace now s es s') : s'.Spelled := by
  have hkeep := ht.keeps (P := fun s => s.Sound ∧ s.Graded ∧ s.Spelled)
    (fun hc h => ⟨h.1.change hc, h.1.graded_change h.2.1 hc, h.1.spelled_change h.2.1 h.2.2 hc⟩)
    ⟨hs, hg, hsp⟩
  exact hkeep.2.2

/-- **The run table of a graded store** is in order. -/
theorem Graded.runsInOrder (hg : s.Graded) (hs : s.Sound) (hsp : s.Spelled) : s.RunsInOrder where
  owner n hn := by
    obtain ⟨j, hj, hid, -, t, ⟨ht, hproblem⟩, htn⟩ := hg.filed.judging n hn
    obtain ⟨r, hr, hsub⟩ := hs.numbered.owned j hj
    rw [← hsub, problemOf_eq hr] at hproblem
    exact ⟨j, hj, hid, r, hr, hsub, t, ht, htn, (Option.some.inj hproblem).symm⟩
  priority n hn := Option.isSome_iff_ne_none.mp (hs.runs n hn)
  testcase_eq := hg.filed.run_eq
  id_le := hg.filed.run_le
  ascending := s.runsOf_ascending
  spelled j hj hl := by
    have hspells : s.Spells j := hsp j hj (by rw [hl]; decide)
    have hlength := congrArg List.length hspells
    rw [List.length_map, List.length_map, String.length_toList] at hlength
    exact ⟨hspells, hlength⟩

end Store

namespace World

variable {w w' : World}

/-- Requests leave the texts as the runs spell them. -/
theorem Steps.spelled (h : w.Steps w') (hs : w.store.Sound) (hg : w.store.Graded)
    (hsp : w.store.Spelled) : w'.store.Spelled := by
  induction h with
  | refl => exact hsp
  | perform h op ctx ih =>
    have hsound := h.sound hs
    exact hsound.spelled_trace (h.graded hs hg) ih (perform_trace op ctx hsound)

theorem Arises.spelled (h : w.Arises) : w.store.Spelled := by
  obtain ⟨rows, blobs, hw⟩ := h
  exact hw.spelled Store.sound_seed Store.graded_seed Store.spelled_seed

/-- **Runs belong to their judgings.** In every world that arises from supplied
rows each run refers to a judging and to a testcase of the problem of that
judging's submission, its verdict has a priority, no two runs of a judging share
a testcase, and no id exceeds the sequence. The text of a judging that is held
is the sequence of the characters of its runs in the order of their ids. -/
theorem runsInOrder_of_arises (h : w.Arises) : w.store.RunsInOrder :=
  h.graded.runsInOrder h.sound h.spelled

/-- In the small exam the judgehost has reported the first part of its runs. The judging
is still held, and its text has the characters of these two runs in their order. -/
theorem runsInOrder_examHalf :
    ∃ j w₁, (Operation.reportRuns "host" 3 examHalf).perform contestContext examClaimed =
        ⟨.ok (some j), w₁, []⟩ ∧
      w₁.Arises ∧ w₁.store.RunsInOrder ∧ j ∈ w₁.store.judgings ∧ j.lifecycle = .claimed ∧
      j.runVerdicts = "91" ∧
      (w₁.store.runsOf j.id).map (fun n => n.verdict.progressChar) = [some '9', some '1'] := by
  obtain ⟨j, w₁, hhalf, hj, -, hclaimed, htext⟩ := reportRuns_examHalf
  have harises : w₁.Arises := by
    have hsteps := reachable_examClaimed.arises.steps
      (Steps.refl.perform (.reportRuns "host" 3 examHalf) contestContext)
    rwa [hhalf] at hsteps
  have horder := runsInOrder_of_arises harises
  have hl : j.lifecycle = .claimed := Judging.isClaimed_iff.mp hclaimed
  have hspelled := (horder.spelled j hj hl).1
  rw [htext] at hspelled
  exact ⟨j, w₁, hhalf, harises, horder, hj, hl, htext, hspelled.symm⟩

end World

end JudgeQueue
