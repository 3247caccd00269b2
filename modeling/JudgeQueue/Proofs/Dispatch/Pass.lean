import JudgeQueue.Dispatch
import JudgeQueue.Proofs.Table.Lookup
import Mathlib.Data.List.Perm.Subperm
/-!
# Dispatch — one pass over the queue

A claim looks for its judging from the start of the queue each time that it has
put one back. It could as well go on where it was: what it switches off stays
off, so the judgings that it has passed stay out of reach. This file says what a
claim comes to as one pass over the queue, in the order of the ids. A judging
whose problem or language has been switched off on the way is skipped, one that
misses a script has the owner of the script switched off, and the pass stops at
the first that has all its scripts.
-/

namespace JudgeQueue

/-- A queued judging that may be handed out, with the rows that say so. -/
structure Job where
  judging : Judging
  submission : Submission
  problem : Problem
  language : Language

/-- Whether the target is the problem or the language of the job. -/
def Job.isOf (job : Job) (t : DisableTarget) : Bool :=
  t = .language job.language.id || t = .problem job.problem.id

/-- A job that has been put back, and the script that it misses. -/
structure SetBack where
  job : Job
  missing : MissingScript

/-- What a pass comes to: the jobs that it puts back, and the one that it hands
out with its scripts. -/
structure Pass where
  setBacks : List SetBack
  handedOut : Option (Job × Scripts)

namespace Dispatch

/-- A pass over some jobs. What is in `off` has been switched off by then. -/
def pass (find : Job → Except MissingScript Scripts) : List DisableTarget → List Job → Pass
  | _, [] => ⟨[], none⟩
  | off, job :: rest =>
    if off.any job.isOf then pass find off rest
    else
      match find job with
      | .ok scripts => ⟨[], some (job, scripts)⟩
      | .error missing =>
        let p := pass find (missing.owner :: off) rest
        ⟨⟨job, missing⟩ :: p.setBacks, p.handedOut⟩

variable {find : Job → Except MissingScript Scripts} {off : List DisableTarget}
variable {job : Job} {jobs : List Job} {missing : MissingScript} {scripts : Scripts}

theorem pass_of_off (h : off.any job.isOf = true) :
    pass find off (job :: jobs) = pass find off jobs :=
  if_pos h

theorem pass_of_ok (h : ¬ off.any job.isOf = true) (hfind : find job = .ok scripts) :
    pass find off (job :: jobs) = ⟨[], some (job, scripts)⟩ := by
  rw [pass, if_neg h, hfind]

theorem pass_of_missing (h : ¬ off.any job.isOf = true) (hfind : find job = .error missing) :
    pass find off (job :: jobs) =
      ⟨⟨job, missing⟩ :: (pass find (missing.owner :: off) jobs).setBacks,
        (pass find (missing.owner :: off) jobs).handedOut⟩ := by
  rw [pass, if_neg h, hfind]

/-- **Skipping jobs on the way** is leaving them out beforehand. -/
theorem pass_filter (off off' : List DisableTarget) (jobs : List Job) :
    pass find off (jobs.filter fun job => !off'.any job.isOf) = pass find (off ++ off') jobs := by
  induction jobs generalizing off with
  | nil => rfl
  | cons job rest ih =>
    by_cases hoff' : off'.any job.isOf = true
    · have hskip : (off ++ off').any job.isOf = true := by
        rw [List.any_append, hoff', Bool.or_true]
      rw [pass_of_off hskip, List.filter_cons_of_neg (by rw [hoff']; decide), ih]
    · rw [List.filter_cons_of_pos (by rw [Bool.eq_false_iff.mpr hoff']; rfl)]
      by_cases hoff : off.any job.isOf = true
      · have hskip : (off ++ off').any job.isOf = true := by
          rw [List.any_append, hoff, Bool.true_or]
        rw [pass_of_off hoff, pass_of_off hskip, ih]
      · have hkept : ¬ (off ++ off').any job.isOf = true := by
          rw [List.any_append, Bool.or_eq_true, not_or]
          exact ⟨hoff, hoff'⟩
        cases hfind : find job with
        | ok scripts => rw [pass_of_ok hoff hfind, pass_of_ok hkept hfind]
        | error missing =>
          rw [pass_of_missing hoff hfind, pass_of_missing hkept hfind, ih, List.cons_append]

/-! ## What is put back -/

/-- Scripts are missed by a job's own problem or language. -/
def BlamesOwn (find : Job → Except MissingScript Scripts) : Prop :=
  ∀ job missing, find job = .error missing → job.isOf missing.owner = true

/-- What is put back is a job that misses the script, and its owner was not off
yet. -/
theorem mem_setBacks (h : BlamesOwn find) {b : SetBack} (hb : b ∈ (pass find off jobs).setBacks) :
    b.job ∈ jobs ∧ find b.job = .error b.missing ∧ b.missing.owner ∉ off := by
  induction jobs generalizing off with
  | nil => cases hb
  | cons job rest ih =>
    by_cases hoff : off.any job.isOf = true
    · rw [pass_of_off hoff] at hb
      obtain ⟨hmem, hrest⟩ := ih hb
      exact ⟨List.mem_cons_of_mem job hmem, hrest⟩
    · cases hfind : find job with
      | ok scripts =>
        rw [pass_of_ok hoff hfind] at hb
        cases hb
      | error missing =>
        rw [pass_of_missing hoff hfind] at hb
        rcases List.mem_cons.mp hb with rfl | hb
        · refine ⟨List.mem_cons_self, hfind, fun hmem => hoff ?_⟩
          exact List.any_eq_true.mpr ⟨missing.owner, hmem, h job missing hfind⟩
        · obtain ⟨hmem, hmiss, hnew⟩ := ih hb
          exact ⟨List.mem_cons_of_mem job hmem, hmiss,
            fun hmem => hnew (List.mem_cons_of_mem _ hmem)⟩

/-- **No target is switched off twice.** -/
theorem nodup_owners (h : BlamesOwn find) (off : List DisableTarget) (jobs : List Job) :
    ((pass find off jobs).setBacks.map fun b => b.missing.owner).Nodup := by
  induction jobs generalizing off with
  | nil => exact List.nodup_nil
  | cons job rest ih =>
    by_cases hoff : off.any job.isOf = true
    · rw [pass_of_off hoff]
      exact ih off
    · cases hfind : find job with
      | ok scripts =>
        rw [pass_of_ok hoff hfind]
        exact List.nodup_nil
      | error missing =>
        rw [pass_of_missing hoff hfind, List.map_cons]
        refine List.nodup_cons.mpr ⟨fun hmem => ?_, ih _⟩
        obtain ⟨b, hb, howner⟩ := List.mem_map.mp hmem
        exact (mem_setBacks h hb).2.2 (howner ▸ List.mem_cons_self)

/-! ## What is handed out -/

/-- Whether all scripts of a job are found. -/
def isFound (find : Job → Except MissingScript Scripts) (job : Job) : Bool :=
  (find job).toOption.isSome

/-- What is handed out is a job that has all its scripts. -/
theorem find_of_handedOut (h : (pass find off jobs).handedOut = some (job, scripts)) :
    job ∈ jobs ∧ find job = .ok scripts := by
  induction jobs generalizing off with
  | nil => cases h
  | cons first rest ih =>
    by_cases hoff : off.any first.isOf = true
    · rw [pass_of_off hoff] at h
      exact (ih h).imp_left (List.mem_cons_of_mem first)
    · cases hfind : find first with
      | ok found =>
        rw [pass_of_ok hoff hfind] at h
        cases h
        exact ⟨List.mem_cons_self, hfind⟩
      | error missing =>
        rw [pass_of_missing hoff hfind] at h
        exact (ih h).imp_left (List.mem_cons_of_mem first)

/-- **A pass hands out the first job that has all its scripts**, since no target
of such a job is switched off. -/
theorem handedOut_pass
    (hoff : ∀ job ∈ jobs, isFound find job = true → off.any job.isOf = false)
    (hblame : ∀ job ∈ jobs, ∀ missing, find job = .error missing →
      ∀ job' ∈ jobs, isFound find job' = true → job'.isOf missing.owner = false) :
    (pass find off jobs).handedOut.map Prod.fst = jobs.find? (isFound find) := by
  induction jobs generalizing off with
  | nil => rfl
  | cons job rest ih =>
    obtain ⟨hjob, hrest⟩ := List.forall_mem_cons.mp hoff
    have hblame' : ∀ job ∈ rest, ∀ missing, find job = .error missing →
        ∀ job' ∈ rest, isFound find job' = true → job'.isOf missing.owner = false :=
      fun a ha missing hmissing b hb =>
        hblame a (List.mem_cons_of_mem _ ha) missing hmissing b (List.mem_cons_of_mem _ hb)
    cases hfind : find job with
    | ok scripts =>
      have hfound : isFound find job = true := by rw [isFound, hfind]; rfl
      have hon : ¬ off.any job.isOf = true := by rw [hjob hfound]; decide
      rw [pass_of_ok hon hfind, List.find?_cons_of_pos hfound]
      rfl
    | error missing =>
      have hlost : ¬ isFound find job = true := by
        rw [isFound, hfind]
        exact Bool.false_ne_true
      rw [List.find?_cons_of_neg hlost]
      by_cases hskip : off.any job.isOf = true
      · rw [pass_of_off hskip]
        exact ih hrest hblame'
      · rw [pass_of_missing hskip hfind]
        refine ih (fun a ha hfound => ?_) hblame'
        rw [List.any_cons, hrest a ha hfound, Bool.or_false]
        exact hblame job List.mem_cons_self missing hfind a (List.mem_cons_of_mem _ ha) hfound

end Dispatch

end JudgeQueue
