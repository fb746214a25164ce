import Mathlib.Data.List.Chain
import PcdProject.Core.Transition
import PcdProject.Server.ProcessingThread

/-!
# One pass over the pending jobs

A call of `process_pending_jobs` from its first step to its return. The loop counts its index up
after it has removed the job at this index, so that it passes over the job behind a job that it
ran.
-/

namespace Pcd

open Transition

/-! ### A loop that removes elements from the list that it walks -/

section SkipNext

variable {α : Type*} (p : α → Bool)

/-- The elements that are taken and those that are left, if an element that is taken hides the next
one. -/
def skipNext : List α → List α × List α
  | []          => ([], [])
  | [a]         => if p a then ([a], []) else ([], [a])
  | a :: b :: l =>
    if p a then (a :: (skipNext l).1, b :: (skipNext l).2)
    else ((skipNext (b :: l)).1, a :: (skipNext (b :: l)).2)

variable {p} {a : α} {l : List α}

lemma skipNext_cons_of_neg (h : p a = false) :
    skipNext p (a :: l) = ((skipNext p l).1, a :: (skipNext p l).2) := by
  cases l <;> simp [skipNext, h]

lemma skipNext_cons_of_pos (h : p a = true) :
    skipNext p (a :: l)
      = (a :: (skipNext p (l.drop 1)).1, l.take 1 ++ (skipNext p (l.drop 1)).2) := by
  cases l <;> simp [skipNext, h]

/-- No two neighbours satisfy `p`. -/
abbrev Apart (p : α → Bool) (l : List α) : Prop := l.IsChain fun a b => ¬ (p a = true ∧ p b = true)

lemma apart_cons_of_neg (h : p a = false) : Apart p (a :: l) ↔ Apart p l := by
  cases l with
  | nil => exact iff_of_true (.singleton a) .nil
  | cons b l =>
    refine List.isChain_cons_cons.trans (and_iff_right ?_)
    simp [h]

lemma apart_cons_of_pos (h : p a = true) :
    Apart p (a :: l) ↔ (∀ b ∈ l.take 1, p b = false) ∧ Apart p (l.drop 1) := by
  cases l with
  | nil => exact iff_of_true (.singleton a) ⟨by simp, .nil⟩
  | cons b l =>
    refine List.isChain_cons_cons.trans ?_
    cases hb : p b with
    | false =>
      refine (and_iff_right ?_).trans ((apart_cons_of_neg hb).trans (and_iff_right ?_).symm)
      · rintro ⟨-, htrue⟩
        exact Bool.false_ne_true htrue
      · exact List.forall_mem_singleton.mpr hb
    | true => simp [h, hb]

/-- Nothing that satisfies `p` is left exactly if no two neighbours do. -/
lemma skipNext_left_iff (p : α → Bool) (l : List α) :
    (∀ a ∈ (skipNext p l).2, p a = false) ↔ Apart p l := by
  induction l using skipNext.induct p with
  | case1 => simp [skipNext]
  | case2 a h => simp [skipNext, h]
  | case3 a h =>
    rw [Bool.not_eq_true] at h
    simp [skipNext, h]
  | case4 a b l h ih =>
    rw [skipNext_cons_of_pos h, apart_cons_of_pos h, List.forall_mem_append]
    exact and_congr_right fun _ => ih
  | case5 a b l h ih =>
    rw [Bool.not_eq_true] at h
    rw [skipNext_cons_of_neg h, apart_cons_of_neg h, List.forall_mem_cons, ih]
    exact and_iff_right h

/-- What is taken then is all that satisfies `p`. -/
lemma skipNext_taken (h : Apart p l) : (skipNext p l).1 = l.filter p := by
  induction l using skipNext.induct p with
  | case1 => rfl
  | case2 a ha => simp [skipNext, ha]
  | case3 a ha =>
    rw [Bool.not_eq_true] at ha
    simp [skipNext, ha]
  | case4 a b l ha ih =>
    obtain ⟨hb, hl⟩ := (apart_cons_of_pos ha).mp h
    have hb' : p b = false := hb b (by simp)
    rw [skipNext_cons_of_pos ha, List.filter_cons_of_pos ha]
    simp only [List.drop_succ_cons, List.drop_zero] at hl ⊢
    rw [ih hl, List.filter_cons_of_neg (by simp [hb'])]
  | case5 a b l ha ih =>
    rw [Bool.not_eq_true] at ha
    rw [skipNext_cons_of_neg ha, List.filter_cons_of_neg (by simp [ha])]
    exact ih ((apart_cons_of_neg ha).mp h)

end SkipNext

/-! ### A call -/

/-- The test of the loop. -/
def PendingJob.isReady (job : PendingJob) : Bool := job.filesReceived ≥ job.fileCount

/-- The job whose command the step runs. -/
def Server.executes (s : Server) (a : ProcessingAction) : List PendingJob :=
  match s.processing, a with
  | .running _ i, .system _ => (s.pendingJobs[i]?).toList
  | _, _ => []

/-- The jobs whose commands are run, in this order. -/
def Server.executed (s : Server) (as : List ProcessingAction) : List PendingJob :=
  trace Server.processingStep Server.executes s as

/-- The step is not the first one of a call, and it is no `chdir` or `malloc` that fails. -/
def ProcessingAction.GoesOn : ProcessingAction → Prop
  | .getcwd _ => False
  | .chdir ok | .malloc ok | .chdirBack ok => ok = true
  | _ => True

/-- Every ready job is run, in the order of the table, and none is left. -/
def Drains (jobs executed left : List PendingJob) : Prop :=
  (∀ job ∈ left, job.isReady = false) ∧ executed = jobs.filter PendingJob.isReady

section Pass

variable {jobs done table : List PendingJob} {job : PendingJob} {i : ℕ} {s t : Server}
variable {a : ProcessingAction} {as : List ProcessingAction}

/-- At index `i`, `done` having been run: what becomes of the rest of the table decides what becomes
of the table `jobs`. -/
def AtIndex (jobs done table : List PendingJob) (i : ℕ) : Prop :=
  skipNext PendingJob.isReady jobs
    = (done ++ (skipNext PendingJob.isReady (table.drop i)).1,
        table.take i ++ (skipNext PendingJob.isReady (table.drop i)).2)

lemma AtIndex.zero (jobs : List PendingJob) : AtIndex jobs [] jobs 0 := rfl

lemma AtIndex.skip (h : AtIndex jobs done table i) (hjob : table[i]? = some job)
    (hready : job.isReady = false) : AtIndex jobs done table (i + 1) := by
  obtain ⟨hi, rfl⟩ := List.getElem?_eq_some_iff.mp hjob
  rw [AtIndex, List.drop_eq_getElem_cons hi, skipNext_cons_of_neg hready] at h
  rw [AtIndex, h, ← List.take_append_getElem hi, List.append_assoc]
  rfl

/-- The job is removed, and the next one takes its place. -/
lemma AtIndex.remove (h : AtIndex jobs done table i) (hjob : table[i]? = some job)
    (hready : job.isReady = true) : AtIndex jobs (done ++ [job]) (table.eraseIdx i) (i + 1) := by
  obtain ⟨hi, rfl⟩ := List.getElem?_eq_some_iff.mp hjob
  have hlen : (table.take i).length = i := List.length_take_of_le hi.le
  have htake : (table.take i ++ table.drop (i + 1)).take (i + 1)
      = table.take i ++ (table.drop (i + 1)).take 1 := by
    conv_lhs => rw [← hlen]
    rw [hlen, List.take_append, hlen, List.take_of_length_le (by omega), Nat.add_sub_cancel_left]
  have hdrop : (table.take i ++ table.drop (i + 1)).drop (i + 1)
      = (table.drop (i + 1)).drop 1 := by
    rw [List.drop_append, hlen, List.drop_of_length_le (by omega), List.nil_append,
      Nat.add_sub_cancel_left]
  rw [AtIndex, List.drop_eq_getElem_cons hi, skipNext_cons_of_pos hready] at h
  rw [AtIndex, h, List.eraseIdx_eq_take_drop_succ, htake, hdrop, List.append_assoc,
    List.append_assoc]
  rfl

lemma AtIndex.finish (h : AtIndex jobs done table i) (hend : table[i]? = none) :
    skipNext PendingJob.isReady jobs = (done, table) := by
  have hle : table.length ≤ i := List.getElem?_eq_none_iff.mp hend
  rw [AtIndex, List.drop_of_length_le hle, List.take_of_length_le hle] at h
  simpa [skipNext] using h

/-- What was run and what is in the table, at each location of the call. From `system` to `remove`
the job at the index was run and is still in the table. -/
def PassInv (jobs : List PendingJob) (s : Server) (done : List PendingJob) : Prop :=
  match s.processing with
  | .sleeping       => skipNext PendingJob.isReady jobs = (done, s.pendingJobs)
  | .locking _      => done = [] ∧ s.pendingJobs = jobs
  | .scanning _ i   => AtIndex jobs done s.pendingJobs i
  | .entering _ i | .running _ i =>
    AtIndex jobs done s.pendingJobs i ∧ ∃ job, s.pendingJobs[i]? = some job ∧ job.isReady = true
  | .allocating _ i _ | .sending _ i _ | .removing _ i =>
    AtIndex jobs done (s.pendingJobs.eraseIdx i) (i + 1)
  | .returning _ i  => AtIndex jobs done s.pendingJobs (i + 1)

lemma PassInv.step (hs : PassInv jobs s done) (ha : a.GoesOn) (h : s.processingStep a = some t) :
    PassInv jobs t (done ++ s.executes a) := by
  have hquiet : (∀ dir i, s.processing ≠ .running dir i) → s.executes a = [] := by
    intro hpc
    unfold Server.executes
    split
    · rename_i dir i ret heq
      exact absurd heq (hpc dir i)
    · rfl
  unfold Server.processingStep at h
  split at h
  · cases ha
  · rename_i originalDir hpc
    cases h
    rw [hquiet (by simp [hpc]), List.append_nil]
    simp only [PassInv, hpc] at hs
    obtain ⟨rfl, rfl⟩ := hs
    exact .zero _
  · rename_i originalDir i hpc
    rw [hquiet (by simp [hpc]), List.append_nil]
    simp only [PassInv, hpc] at hs
    split at h
    · rename_i hend
      cases h
      exact hs.finish hend
    · rename_i job hjob
      split_ifs at h with hready <;> cases h
      · exact ⟨hs, job, hjob, decide_eq_true hready⟩
      · exact hs.skip hjob (decide_eq_false hready)
  · rename_i originalDir i ok hpc
    obtain rfl : ok = true := ha
    rw [hquiet (by simp [hpc]), List.append_nil]
    simp only [PassInv, hpc] at hs
    obtain ⟨job, hjob, rfl⟩ := Option.map_eq_some_iff.mp h
    exact hs
  · rename_i originalDir i ret hpc
    cases h
    simp only [PassInv, hpc] at hs
    obtain ⟨hindex, job, hjob, hready⟩ := hs
    have hrun : s.executes (.system ret) = [job] := by simp [Server.executes, hpc, hjob]
    rw [hrun]
    exact hindex.remove hjob hready
  · rename_i originalDir i status ok hpc
    obtain rfl : ok = true := ha
    cases h
    rw [hquiet (by simp [hpc]), List.append_nil]
    simpa only [PassInv, hpc] using hs
  · rename_i originalDir i status hpc
    obtain ⟨job, hjob, rfl⟩ := Option.map_eq_some_iff.mp h
    rw [hquiet (by simp [hpc]), List.append_nil]
    simpa only [PassInv, hpc] using hs
  · rename_i originalDir i hpc
    cases h
    rw [hquiet (by simp [hpc]), List.append_nil]
    simpa only [PassInv, hpc] using hs
  · rename_i originalDir i ok hpc
    obtain rfl : ok = true := ha
    cases h
    rw [hquiet (by simp [hpc]), List.append_nil]
    simpa only [PassInv, hpc] using hs
  · cases h

/-- A call that gets past `getcwd`. -/
lemma skipNext_of_run {dir : Bytes} (hpc : s.processing = .locking dir)
    (has : ∀ a ∈ as, a.GoesOn) (h : run Server.processingStep s as = some t)
    (hreturn : t.processing = .sleeping) :
    skipNext PendingJob.isReady s.pendingJobs = (s.executed as, t.pendingJobs) := by
  have hC : Along Server.processingStep (fun _ a => a.GoesOn) s as := by
    intro pre a u hpre _
    exact has a (hpre.subset (List.mem_append_right _ (List.mem_singleton_self a)))
  have hinv : PassInv s.pendingJobs t (s.executed as) := by
    refine along_trace_invariant (I := PassInv s.pendingJobs) ?_
      (fun _ _ _ _ hs ha h => hs.step ha h) hC h
    simp [PassInv, hpc]
  simpa only [PassInv, hreturn] using hinv

lemma drains_skipNext (jobs : List PendingJob) :
    Drains jobs (skipNext PendingJob.isReady jobs).1 (skipNext PendingJob.isReady jobs).2 ↔
      Apart PendingJob.isReady jobs := by
  constructor
  · rintro ⟨hleft, -⟩
    exact (skipNext_left_iff _ _).mp hleft
  · intro hjobs
    exact ⟨(skipNext_left_iff _ _).mpr hjobs, skipNext_taken hjobs⟩

lemma apart_of_notReady (h : ∀ job ∈ jobs, job.isReady = false) :
    Apart PendingJob.isReady jobs := by
  induction jobs with
  | nil => exact .nil
  | cons job jobs ih =>
    obtain ⟨hjob, hjobs⟩ := List.forall_mem_cons.mp h
    exact (apart_cons_of_neg hjob).mpr (ih hjobs)

/-- A call in which `getcwd` fails has no further steps. -/
lemma eq_of_run_sleeping (hpc : s.processing = .sleeping) (has : ∀ a ∈ as, a.GoesOn)
    (h : run Server.processingStep s as = some t) : s = t ∧ s.executed as = [] := by
  cases as with
  | nil =>
    cases h
    exact ⟨rfl, rfl⟩
  | cons a as =>
    exfalso
    obtain ⟨u, hu, -⟩ := Option.bind_eq_some_iff.mp h
    have ha := has a List.mem_cons_self
    cases a with
    | getcwd ok => exact ha
    | _ => simp [Server.processingStep, hpc] at hu

lemma drains_nil_iff : Drains jobs [] jobs ↔ ∀ job ∈ jobs, job.isReady = false := by
  constructor
  · exact And.left
  · intro hnone
    refine ⟨hnone, (List.filter_eq_nil_iff.mpr ?_).symm⟩
    intro job hjob
    rw [hnone job hjob]
    exact Bool.false_ne_true

end Pass

/-! ### Main result -/

/-- A call in which every `chdir` and `malloc` succeeds runs and removes all ready jobs exactly if
`getcwd` succeeds, where there is a ready job, and no two ready jobs stand next to each other. -/
theorem call_drains_iff {s t : Server} {ok : Bool} {as : List ProcessingAction}
    (hpc : s.processing = .sleeping) (has : ∀ a ∈ as, a.GoesOn)
    (h : run Server.processingStep s (.getcwd ok :: as) = some t)
    (hreturn : t.processing = .sleeping) :
    Drains s.pendingJobs (s.executed (.getcwd ok :: as)) t.pendingJobs ↔
      ((∃ job ∈ s.pendingJobs, job.isReady = true) →
        ok = true ∧ s.cwd.length < ORIGINAL_DIR_SIZE) ∧
      Apart PendingJob.isReady s.pendingJobs := by
  obtain ⟨u, hu, hrun⟩ := Option.bind_eq_some_iff.mp h
  have htrace : s.executed (.getcwd ok :: as) = u.executed as := by
    rw [Server.executed, trace_cons _ hu]
    simp [Server.executes, hpc, Server.executed]
  rw [htrace]
  simp only [Server.processingStep, hpc] at hu
  split_ifs at hu with hcwd <;> cases hu
  · obtain ⟨rfl, hlen⟩ := Bool.and_eq_true_iff.mp hcwd
    have hskip := skipNext_of_run rfl has hrun hreturn
    rw [and_iff_right fun _ => ⟨rfl, of_decide_eq_true hlen⟩, ← drains_skipNext, hskip]
  · obtain ⟨rfl, hexecuted⟩ := eq_of_run_sleeping hpc has hrun
    rw [hexecuted, drains_nil_iff]
    constructor
    · intro hnone
      refine ⟨?_, apart_of_notReady hnone⟩
      rintro ⟨job, hjob, hready⟩
      exact absurd hready (by rw [hnone job hjob]; exact Bool.false_ne_true)
    · rintro ⟨hcond, -⟩ job hjob
      by_contra hready
      rw [Bool.not_eq_false] at hready
      obtain ⟨hok, hlen⟩ := hcond ⟨job, hjob, hready⟩
      exact hcwd (Bool.and_eq_true_iff.mpr ⟨hok, decide_eq_true hlen⟩)

/-- A table of two jobs, the second of them ready. -/
theorem call_drains_iff_second :
    let job (files : ℕ) : PendingJob :=
      ⟨Vector.replicate 16 1, ⟨1, 1⟩, 7, cstr "true", 1, files, 0⟩
    let s : Server := { Server.init (cstr "/srv") with pendingJobs := [job 0, job 1] }
    let as : List ProcessingAction := [.lock, .check, .check, .chdir true, .system 0, .malloc true,
      .sendto, .remove, .chdirBack true, .check]
    ∃ t, run Server.processingStep s (.getcwd true :: as) = some t ∧
      (Drains s.pendingJobs (s.executed (.getcwd true :: as)) t.pendingJobs ↔
        ((∃ job ∈ s.pendingJobs, job.isReady = true) →
          true = true ∧ s.cwd.length < ORIGINAL_DIR_SIZE) ∧
        Apart PendingJob.isReady s.pendingJobs) :=
  ⟨_, rfl, call_drains_iff rfl (by simp [ProcessingAction.GoesOn]) rfl rfl⟩

/-- Two ready jobs: the second one stays in the table. -/
theorem not_call_drains_two :
    ¬ ∀ (s t : Server) (as : List ProcessingAction), s.processing = .sleeping →
      (∀ a ∈ as, a.GoesOn) → run Server.processingStep s (.getcwd true :: as) = some t →
        t.processing = .sleeping →
          Drains s.pendingJobs (s.executed (.getcwd true :: as)) t.pendingJobs := by
  intro h
  let job (jobId : UInt32) : PendingJob :=
    ⟨Vector.replicate 16 1, ⟨1, 1⟩, jobId, cstr "true", 0, 0, 0⟩
  let s : Server := { Server.init (cstr "/srv") with pendingJobs := [job 1, job 2] }
  let as : List ProcessingAction :=
    [.lock, .check, .chdir true, .system 0, .malloc true, .sendto, .remove, .chdirBack true, .check]
  obtain ⟨hleft, -⟩ := h s _ as rfl (by simp [as, ProcessingAction.GoesOn]) rfl rfl
  exact Bool.false_ne_true (hleft (job 2) List.mem_cons_self).symm

end Pcd
