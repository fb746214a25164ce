import PcdProject.Server.FileCounter
import PcdProject.Server.JobLedger
import PcdProject.Server.ProcessingPass
import PcdProject.Server.WorkingDirectory

/-!
# How long a ready job waits

A pass leaves every second one of a row of ready jobs in the table, so that several passes drain it.
While the other threads go on, jobs in front of a ready job may get ready one after the other; each
pass that passes over the job then has removed a job in front of it.
-/

namespace Pcd

open Transition

/-! ### Several passes over a list -/

section Rounds

variable {α : Type*} {p : α → Bool} {a : α} {l : List α} {k : ℕ}

/-- The rows of neighbours that satisfy `p`. -/
def rows (p : α → Bool) (l : List α) : List (List α) := l.splitOnP fun a => !p a

@[simp] lemma rows_nil : rows p [] = [[]] := rfl

lemma rows_cons_of_neg (h : p a = false) : rows p (a :: l) = [] :: rows p l := by
  simp [rows, List.splitOnP_cons_eq_if_modifyHead, h]

lemma rows_cons_of_pos (h : p a = true) :
    rows p (a :: l) = (rows p l).modifyHead (List.cons a) := by
  simp [rows, List.splitOnP_cons_eq_if_modifyHead, h]

lemma length_rows_cons_of_pos (h : p a = true) :
    (rows p (a :: l)).map List.length = ((rows p l).map List.length).modifyHead (· + 1) := by
  rw [rows_cons_of_pos h]
  cases rows p l <;> simp

/-- A pass halves every row. -/
lemma length_rows_skipNext (p : α → Bool) (l : List α) :
    (rows p (skipNext p l).2).map List.length = ((rows p l).map List.length).map (· / 2) := by
  induction l using skipNext.induct p with
  | case1 => simp [skipNext]
  | case2 a h => simp [skipNext, h, length_rows_cons_of_pos]
  | case3 a h =>
    rw [Bool.not_eq_true] at h
    simp [skipNext, h, rows_cons_of_neg]
  | case4 a b l h ih =>
    have hleft : (skipNext p (a :: b :: l)).2 = b :: (skipNext p l).2 := by simp [skipNext, h]
    rw [hleft, length_rows_cons_of_pos h]
    cases hb : p b with
    | true =>
      rw [length_rows_cons_of_pos hb, length_rows_cons_of_pos hb, ih]
      cases (rows p l).map List.length with
      | nil => rfl
      | cons n ns =>
        have hhalf : n / 2 + 1 = (n + 1 + 1) / 2 := by omega
        simp [hhalf]
    | false => simp [rows_cons_of_neg hb, ih]
  | case5 a b l h ih =>
    rw [Bool.not_eq_true] at h
    rw [skipNext_cons_of_neg h, rows_cons_of_neg h, rows_cons_of_neg h, List.map_cons, ih]
    simp

/-- No element satisfies `p` exactly if all rows are empty. -/
lemma forall_not_iff_rows (p : α → Bool) (l : List α) :
    (∀ a ∈ l, p a = false) ↔ ∀ n ∈ (rows p l).map List.length, n = 0 := by
  induction l with
  | nil => simp
  | cons a l ih =>
    rw [List.forall_mem_cons, ih]
    cases h : p a with
    | false => simp [rows_cons_of_neg h]
    | true =>
      rw [length_rows_cons_of_pos h]
      have hne : (rows p l).map List.length ≠ [] := by
        simp [rows, List.splitOnP_ne_nil]
      cases hrows : (rows p l).map List.length with
      | nil => exact absurd hrows hne
      | cons n ns => simp

/-- What is left after `k` passes. -/
def leftAfter (p : α → Bool) (k : ℕ) (l : List α) : List α := (fun l => (skipNext p l).2)^[k] l

lemma length_rows_leftAfter (p : α → Bool) (k : ℕ) (l : List α) :
    (rows p (leftAfter p k l)).map List.length = ((rows p l).map List.length).map (· / 2 ^ k) := by
  induction k generalizing l with
  | zero => simp [leftAfter]
  | succ k ih =>
    rw [leftAfter, Function.iterate_succ_apply, ← leftAfter, ih, length_rows_skipNext,
      List.map_map]
    apply List.map_congr_left
    intro n _
    simp [Nat.div_div_eq_div_mul, pow_succ, Nat.mul_comm]

/-- After `k` passes nothing that satisfies `p` is left exactly if no row had `2 ^ k` elements. -/
lemma leftAfter_iff (p : α → Bool) (k : ℕ) (l : List α) :
    (∀ a ∈ leftAfter p k l, p a = false) ↔ ∀ row ∈ rows p l, row.length < 2 ^ k := by
  rw [forall_not_iff_rows, length_rows_leftAfter]
  simp [Nat.div_eq_zero_iff]

/-- A pass neither loses nor copies elements, and keeps those that do not satisfy `p` in order. -/
lemma skipNext_perm (p : α → Bool) (l : List α) :
    ((skipNext p l).1 ++ (skipNext p l).2).Perm l ∧ (∀ a ∈ (skipNext p l).1, p a = true) ∧
      (skipNext p l).2.Sublist l := by
  induction l using skipNext.induct p with
  | case1 => simp [skipNext]
  | case2 a h => simp [skipNext, h]
  | case3 a h => simp [skipNext, h]
  | case4 a b l h ih =>
    obtain ⟨hperm, htaken, hsub⟩ := ih
    simp only [skipNext, h, if_true]
    refine ⟨?_, List.forall_mem_cons.mpr ⟨h, htaken⟩, (hsub.cons_cons b).cons a⟩
    exact (List.perm_middle.trans (hperm.cons b)).cons a
  | case5 a b l h ih =>
    obtain ⟨hperm, htaken, hsub⟩ := ih
    simp only [skipNext, h]
    exact ⟨List.perm_middle.trans (hperm.cons a), htaken, hsub.cons_cons a⟩

end Rounds

/-! ### Calls, one after the other -/

/-- `k` calls in which no system call fails, each up to its return, and the jobs that they run. -/
inductive Calls : ℕ → Server → List PendingJob → Server → Prop where
  | none (s : Server) : Calls 0 s [] s
  | call {k : ℕ} {s t u : Server} {as : List ProcessingAction} {ran : List PendingJob}
      (has : ∀ a ∈ as, a.GoesOn)
      (h : run Server.processingStep s (.getcwd true :: as) = some t)
      (hreturn : t.processing = .sleeping) (hrest : Calls k t ran u) :
      Calls (k + 1) s (s.executed (.getcwd true :: as) ++ ran) u

section Calls

variable {s t u : Server} {a : ProcessingAction} {as : List ProcessingAction} {dir : Bytes}
variable {ran : List PendingJob} {k : ℕ}

/-- The locations at which the process is in its original directory. -/
def Processing.atHome : Processing → Bool
  | .sleeping | .locking _ | .scanning _ _ | .entering _ _ => true
  | _ => false

/-- The pass knows `dir` as its original directory and is there before and after each job. -/
def Homed (dir : Bytes) (s : Server) : Prop :=
  (∀ d ∈ s.processing.originalDir, d = dir) ∧ (s.processing.atHome = true → s.cwd = dir)

lemma Homed.step (hs : Homed dir s) (ha : a.GoesOn) (h : s.processingStep a = some t) :
    Homed dir t := by
  obtain ⟨horiginal, hhome⟩ := hs
  cases ProcessingRule.of_processingStep h with
  | getcwd | getcwdFail => cases ha
  | chdirFail | mallocFail => cases ha
  | unlock originalDir i hpc =>
    exact ⟨by simp [Processing.originalDir], fun _ => hhome (by rw [hpc]; rfl)⟩
  | chdirBack originalDir i ok hpc =>
    obtain rfl : ok = true := ha
    obtain rfl : originalDir = dir := horiginal _ (by rw [hpc]; rfl)
    exact ⟨fun d hd => horiginal d (by rw [hpc]; exact hd), fun _ => rfl⟩
  | lock originalDir hpc | ready originalDir i _ hpc | notReady originalDir i hpc =>
    exact ⟨fun d hd => horiginal d (by rw [hpc]; exact hd), fun _ => hhome (by rw [hpc]; rfl)⟩
  | chdir originalDir i _ hpc | system originalDir i _ _ hpc | malloc originalDir i _ hpc
  | sendto originalDir i _ _ hpc | remove originalDir i hpc =>
    exact ⟨fun d hd => horiginal d (by rw [hpc]; exact hd), by simp [Processing.atHome]⟩

/-- What a call leaves in the table, and where. -/
lemma skipNext_of_call (hcwd : s.cwd.length < ORIGINAL_DIR_SIZE) (has : ∀ a ∈ as, a.GoesOn)
    (h : run Server.processingStep s (.getcwd true :: as) = some t)
    (hreturn : t.processing = .sleeping) :
    skipNext PendingJob.isReady s.pendingJobs
        = (s.executed (.getcwd true :: as), t.pendingJobs) ∧ t.cwd = s.cwd := by
  obtain ⟨u, hu, hrun⟩ := Option.bind_eq_some_iff.mp h
  have hpc : s.processing = .sleeping := by
    cases hproc : s.processing with
    | sleeping => rfl
    | _ => simp [Server.processingStep, hproc] at hu
  have hlocking : u = { s with processing := .locking s.cwd } := by
    simp only [Server.processingStep, hpc, hcwd, decide_true, Bool.and_self, if_true] at hu
    exact (Option.some.inj hu).symm
  subst hlocking
  constructor
  · have htrace : s.executed (.getcwd true :: as)
        = Server.executed { s with processing := .locking s.cwd } as := by
      rw [Server.executed, trace_cons _ hu]
      simp [Server.executes, hpc, Server.executed]
    rw [htrace]
    exact skipNext_of_run rfl has hrun hreturn
  · have hC : Along Server.processingStep (fun _ a => a.GoesOn)
        { s with processing := .locking s.cwd } as := by
      intro pre a u hpre _
      exact has a (hpre.subset (List.mem_append_right _ (List.mem_singleton_self a)))
    have hhomed : Homed s.cwd t := by
      refine along_invariant (I := Homed s.cwd) (fun _ _ _ hs ha h => hs.step ha h) ?_ hC hrun
      exact ⟨by simp [Processing.originalDir], fun _ => rfl⟩
    exact hhomed.2 (by rw [hreturn]; rfl)

lemma leftAfter_of_calls (h : Calls k s ran t) (hcwd : s.cwd.length < ORIGINAL_DIR_SIZE) :
    t.pendingJobs = leftAfter PendingJob.isReady k s.pendingJobs ∧
      (ran ++ t.pendingJobs).Perm s.pendingJobs ∧ (∀ job ∈ ran, job.isReady = true) ∧
      t.pendingJobs.Sublist s.pendingJobs := by
  induction h with
  | none s => exact ⟨rfl, .refl _, by simp, .refl _⟩
  | call has h hreturn hrest ih =>
    rename_i s t k ran u
    obtain ⟨hskip, hdir⟩ := skipNext_of_call hcwd has h hreturn
    obtain ⟨hleft, hperm, hready, hsub⟩ := ih (by rw [hdir]; exact hcwd)
    have hpass := skipNext_perm PendingJob.isReady s.pendingJobs
    rw [hskip] at hpass
    obtain ⟨hperm', hready', hsub'⟩ := hpass
    refine ⟨?_, ?_, ?_, hsub.trans hsub'⟩
    · rw [hleft, leftAfter, leftAfter, Function.iterate_succ_apply, hskip]
    · rw [List.append_assoc]
      exact (hperm.append_left _).trans hperm'
    · exact List.forall_mem_append.mpr ⟨hready', hready⟩

/-- A pass comes to its end. -/
lemma exists_run_of_scanning (n : ℕ) {i : ℕ} (hpc : s.processing = .scanning dir i)
    (hn : s.pendingJobs.length - i ≤ n) :
    ∃ as t, run Server.processingStep s as = some t ∧ (∀ a ∈ as, a.GoesOn) ∧
      t.processing = .sleeping := by
  induction n generalizing s i with
  | zero =>
    have hend : s.pendingJobs[i]? = none := List.getElem?_eq_none_iff.mpr (by omega)
    refine ⟨[.check], { s with processing := .sleeping }, ?_, by simp [ProcessingAction.GoesOn], rfl⟩
    simp [Server.processingStep, hpc, hend]
  | succ n ih =>
    cases hjob : s.pendingJobs[i]? with
    | none =>
      refine ⟨[.check], { s with processing := .sleeping }, ?_, by simp [ProcessingAction.GoesOn],
        rfl⟩
      simp [Server.processingStep, hpc, hjob]
    | some job =>
      obtain ⟨hi, -⟩ := List.getElem?_eq_some_iff.mp hjob
      by_cases hready : job.filesReceived ≥ job.fileCount
      · let steps : List ProcessingAction :=
          [.check, .chdir true, .system 0, .malloc true, .sendto, .remove, .chdirBack true]
        let next : Server := { s with
          pendingJobs := s.pendingJobs.eraseIdx i
          outbox := s.outbox ++ [(job.clientAddr, jobResult job .ok)]
          cwd := dir
          processing := .scanning dir (i + 1) }
        have hsteps : run Server.processingStep s steps = some next := by
          simp [steps, next, Server.processingStep, hpc, hjob, hready]
        have hlen : next.pendingJobs.length - (i + 1) ≤ n := by
          simp only [next, List.length_eraseIdx, hi, if_true]
          omega
        obtain ⟨as, t, hrun, has, hreturn⟩ := ih (s := next) rfl hlen
        refine ⟨steps ++ as, t, ?_, ?_, hreturn⟩
        · rw [run_append, hsteps]
          exact hrun
        · exact List.forall_mem_append.mpr ⟨by simp [steps, ProcessingAction.GoesOn], has⟩
      · obtain ⟨as, t, hrun, has, hreturn⟩ :=
          ih (s := { s with processing := .scanning dir (i + 1) }) rfl (by simp only; omega)
        refine ⟨.check :: as, t, ?_, List.forall_mem_cons.mpr ⟨trivial, has⟩, hreturn⟩
        simpa [Server.processingStep, hpc, hjob, hready] using hrun

lemma exists_calls (k : ℕ) (hpc : s.processing = .sleeping)
    (hcwd : s.cwd.length < ORIGINAL_DIR_SIZE) : ∃ ran t, Calls k s ran t := by
  induction k generalizing s with
  | zero => exact ⟨[], s, .none s⟩
  | succ k ih =>
    let start := { s with processing := .scanning s.cwd 0 }
    obtain ⟨as, t, hrun, has, hreturn⟩ : ∃ as t, run Server.processingStep start as = some t ∧
        (∀ a ∈ as, a.GoesOn) ∧ t.processing = .sleeping :=
      exists_run_of_scanning _ rfl le_rfl
    have hcall : run Server.processingStep s (.getcwd true :: .lock :: as) = some t := by
      simpa [Server.processingStep, hpc, hcwd] using hrun
    have has' : ∀ a ∈ ProcessingAction.lock :: as, a.GoesOn :=
      List.forall_mem_cons.mpr ⟨trivial, has⟩
    obtain ⟨-, hdir⟩ := skipNext_of_call hcwd has' hcall hreturn
    obtain ⟨ran, u, hrest⟩ := ih hreturn (by rw [hdir]; exact hcwd)
    exact ⟨_, u, .call has' hcall hreturn hrest⟩

/-- `k` calls in which no system call fails run every ready job exactly if no `2 ^ k` ready jobs
stand next to each other in the table. Each job that they remove was run, once, and the jobs that
are left keep their order. -/
theorem calls_drain_iff (h : Calls k s ran t) (hcwd : s.cwd.length < ORIGINAL_DIR_SIZE) :
    ((∀ job ∈ t.pendingJobs, job.isReady = false) ↔
        ∀ row ∈ rows PendingJob.isReady s.pendingJobs, row.length < 2 ^ k) ∧
      (ran ++ t.pendingJobs).Perm s.pendingJobs ∧ (∀ job ∈ ran, job.isReady = true) ∧
      t.pendingJobs.Sublist s.pendingJobs := by
  obtain ⟨hleft, hrest⟩ := leftAfter_of_calls h hcwd
  refine ⟨?_, hrest⟩
  rw [hleft]
  exact leftAfter_iff _ _ _

/-- Three ready jobs, which two calls run. -/
theorem calls_drain_iff_three :
    let job (jobId : UInt32) : PendingJob :=
      ⟨Vector.replicate 16 1, ⟨1, 1⟩, jobId, cstr "true", 0, 0, 0⟩
    let s : Server := { Server.init (cstr "/srv") with pendingJobs := [job 1, job 2, job 3] }
    ∃ ran t, Calls 2 s ran t ∧
      ((∀ job ∈ t.pendingJobs, job.isReady = false) ↔
        ∀ row ∈ rows PendingJob.isReady s.pendingJobs, row.length < 2 ^ 2) ∧
      (ran ++ t.pendingJobs).Perm s.pendingJobs ∧ (∀ job ∈ ran, job.isReady = true) ∧
      t.pendingJobs.Sublist s.pendingJobs := by
  intro job s
  have hcwd : s.cwd.length < ORIGINAL_DIR_SIZE := by decide
  obtain ⟨ran, t, h⟩ := exists_calls 2 (s := s) rfl hcwd
  exact ⟨ran, t, h, calls_drain_iff h hcwd⟩

end Calls

/-! ### While the other threads go on -/

namespace Server

/-- The end of a pass. -/
def passEnds (s : Server) (a : Action) : List Unit :=
  match s.processing, a with
  | .scanning _ i, .processing .check => if s.pendingJobs[i]? = none then [()] else []
  | _, _ => []

/-- The job whose `chdir` or `malloc` fails in the step. -/
def fails (s : Server) (a : Action) : Option PendingJob :=
  match s.processing, a with
  | .entering _ i, .processing (.chdir false)       => s.pendingJobs[i]?
  | .allocating _ i _, .processing (.malloc false)  => s.pendingJobs[i]?
  | _, _ => none

end Server

/-- `1` if the pass has gone past index `q`. -/
def Processing.past (q : ℕ) : Processing → ℕ
  | .sleeping | .locking _ => 0
  | .scanning _ i | .entering _ i | .running _ i | .allocating _ i _ | .sending _ i _
  | .removing _ i => if q < i then 1 else 0
  | .returning _ i => if q ≤ i then 1 else 0

section Waiting

variable {s t : Server} {a : Action} {as bs : List Action} {l : Ledger} {job : PendingJob}
variable {key : JobKey} {dir : Bytes} {k m p q : ℕ}

/-- A step of the pass, other than a removal, goes past a ready job only where the job fails. -/
lemma past_processingStep {a : ProcessingAction} (h : s.processingStep a = some t)
    (ha : a ≠ .remove) (hjob : s.pendingJobs[q]? = some job) (hready : job.isReady = true)
    (hok : ∀ job' ∈ s.fails (.processing a), job'.key ≠ job.key) :
    t.processing.past q + (s.passEnds (.processing a)).length ≤ s.processing.past q := by
  have hquiet : (∀ dir i, s.processing ≠ .scanning dir i) →
      (s.passEnds (.processing a)).length = 0 := by
    intro hpc
    unfold Server.passEnds
    split
    · rename_i dir i heq _
      exact absurd heq (hpc dir i)
    · rfl
  unfold Server.processingStep at h
  split at h
  · rename_i ok hpc
    rw [hquiet (by simp [hpc])]
    split_ifs at h <;> cases h <;> simp [hpc, Processing.past]
  · rename_i originalDir hpc
    rw [hquiet (by simp [hpc])]
    cases h
    simp [hpc, Processing.past]
  · rename_i originalDir i hpc
    split at h
    · rename_i hend
      -- the end of the table lies behind the job
      have hlt : q < i := by
        by_contra hle
        have hnone := List.getElem?_eq_none_iff.mp hend
        have hsome := (List.getElem?_eq_some_iff.mp hjob).1
        omega
      cases h
      simp [Server.passEnds, hpc, hend, Processing.past, hlt]
    · rename_i job' hjob'
      have hends : s.passEnds (.processing .check) = [] := by simp [Server.passEnds, hpc, hjob']
      rw [hends, hpc]
      split_ifs at h with hready' <;> cases h
      · simp [Processing.past]
      · have hne : i ≠ q := by
          rintro rfl
          obtain rfl := Option.some.inj (hjob.symm.trans hjob')
          exact hready' (of_decide_eq_true hready)
        simp only [Processing.past, List.length_nil]
        split_ifs <;> omega
  · rename_i originalDir i ok hpc
    rw [hquiet (by simp [hpc]), hpc]
    split_ifs at h with hchdir
    · obtain ⟨job', -, rfl⟩ := Option.map_eq_some_iff.mp h
      simp [Processing.past]
    · cases h
      have hne : i ≠ q := by
        rintro rfl
        rw [Bool.not_eq_true] at hchdir
        exact hok job (by simp [Server.fails, hpc, hchdir, hjob]) rfl
      simp only [Processing.past]
      split_ifs <;> omega
  · rename_i originalDir i ret hpc
    rw [hquiet (by simp [hpc]), hpc]
    cases h
    simp [Processing.past]
  · rename_i originalDir i status ok hpc
    rw [hquiet (by simp [hpc]), hpc]
    split_ifs at h with hmalloc
    · cases h
      simp [Processing.past]
    · cases h
      have hne : i ≠ q := by
        rintro rfl
        rw [Bool.not_eq_true] at hmalloc
        exact hok job (by simp [Server.fails, hpc, hmalloc, hjob]) rfl
      simp only [Processing.past]
      split_ifs <;> omega
  · rename_i originalDir i status hpc
    rw [hquiet (by simp [hpc]), hpc]
    obtain ⟨job', -, rfl⟩ := Option.map_eq_some_iff.mp h
    simp [Processing.past]
  · exact absurd rfl ha
  · rename_i originalDir i ok hpc
    rw [hquiet (by simp [hpc]), hpc]
    cases h
    simp only [Processing.past]
    split_ifs <;> omega
  · cases h

lemma past_step (h : s.step a = some t) (ha : a ≠ .processing .remove)
    (hjob : s.pendingJobs[q]? = some job) (hready : job.isReady = true)
    (hok : ∀ job' ∈ s.fails a, job'.key ≠ job.key) :
    t.processing.past q + (s.passEnds a).length ≤ s.processing.past q := by
  have hother : (∀ a', a ≠ .processing a') → t.processing = s.processing →
      t.processing.past q + (s.passEnds a).length ≤ s.processing.past q := by
    intro hnone hproc
    have hends : s.passEnds a = [] := by
      unfold Server.passEnds
      split
      · exact absurd rfl (hnone _)
      · rfl
    simp [hproc, hends]
  cases SystemRule.of_step h with
  | processing a _ _ => exact past_processingStep h (by rintro rfl; exact ha rfl) hjob hready hok
  | client a _ h => exact hother (by simp) (by cases h <;> rfl)
  | worker w a _ h => exact hother (by simp) (by cases h <;> rfl)
  | download a _ h => exact hother (by simp) (by cases h <;> rfl)
  | sweep | kick | limit | limitIgnored | connectUpload | connectDownload =>
    exact hother (by simp) rfl

/-- A job that is not removed stays where it is, and stays ready. -/
lemma job_step (h : s.step a = some t) (ha : a ≠ .processing .remove)
    (hjob : s.pendingJobs[q]? = some job) (hready : job.isReady = true) :
    ∃ job', t.pendingJobs[q]? = some job' ∧ job'.key = job.key ∧ job'.isReady = true := by
  cases PendingRule.of_step h with
  | keep hjobs => exact ⟨job, hjobs ▸ hjob, rfl, hready⟩
  | append req cmd src now hpc ha hjobs =>
    refine ⟨job, ?_, rfl, hready⟩
    rw [hjobs, List.getElem?_append_left (List.getElem?_eq_some_iff.mp hjob).1]
    exact hjob
  | count w upload remaining total now hpc ha hjobs =>
    rw [hjobs]
    have hgrown : ({ job with filesReceived := job.filesReceived + 1, lastUpdate := now } :
        PendingJob).isReady = true :=
      decide_eq_true ((of_decide_eq_true hready).trans (Nat.le_succ _))
    rcases countFile_cases upload.key now s.pendingJobs with
      ⟨pre, first, post, hsplit, -, -, hcount⟩ | ⟨-, hcount⟩
    · rw [hcount]
      rw [hsplit] at hjob
      rcases lt_trichotomy q pre.length with hlt | rfl | hlt
      · rw [List.getElem?_append_left hlt] at hjob ⊢
        exact ⟨job, hjob, rfl, hready⟩
      · obtain rfl : first = job := by simpa using hjob
        refine ⟨{ first with filesReceived := first.filesReceived + 1, lastUpdate := now }, ?_, rfl,
          hgrown⟩
        simp
      · obtain ⟨r, rfl⟩ := Nat.exists_eq_add_of_lt hlt
        refine ⟨job, ?_, rfl, hready⟩
        rw [← hjob, List.getElem?_append_right (by omega), List.getElem?_append_right (by omega),
          show pre.length + r + 1 - pre.length = r + 1 by omega, List.getElem?_cons_succ,
          List.getElem?_cons_succ]
    · rw [hcount]
      exact ⟨job, hjob, rfl, hready⟩
  | remove i ha' _ => exact absurd ha' ha

/-- Only a removal takes a number away. -/
lemma pending_step (h : s.step a = some t) (ha : a ≠ .processing .remove)
    (hk : l.pending[q]? = some k) : ((s.jobEvents a).foldl Ledger.next l).pending[q]? = some k := by
  have happend : ∀ n, (l.pending ++ [n])[q]? = some k := by
    intro n
    rw [List.getElem?_append_left (List.getElem?_eq_some_iff.mp hk).1]
    exact hk
  cases JobRule.of_step h with
  | keep hevents | enter _ _ hevents | allocate _ _ _ hevents =>
    rw [hevents]
    exact hk
  | create job hevents =>
    rw [hevents]
    exact happend _
  | turn hevents =>
    rcases hevents with hevents | hevents <;> rw [hevents] <;> exact hk
  | ready _ _ _ hevents | sent _ _ _ _ hevents =>
    rw [hevents]
    exact hk
  | ran dir i ret hevents =>
    rw [hevents]
    cases s.pendingJobs[i]? <;> exact hk
  | removed dir i hevents hjobs hpc hpc' =>
    exfalso
    have hmove : t.processing ≠ s.processing := by simp [hpc, hpc']
    cases SystemRule.of_step h with
    | processing a _ h =>
      cases h with
      | remove => exact ha rfl
      | getcwd hpc₀ | getcwdFail _ hpc₀ | lock _ hpc₀ | unlock _ _ hpc₀ | ready _ _ _ hpc₀
      | notReady _ _ hpc₀ | chdir _ _ _ hpc₀ | chdirFail _ _ hpc₀ | system _ _ _ _ hpc₀
      | malloc _ _ _ hpc₀ | mallocFail _ _ _ hpc₀ | sendto _ _ _ _ hpc₀
      | chdirBack _ _ _ hpc₀ => exact absurd (hpc.symm.trans hpc₀) (by simp)
    | client a _ h => exact hmove (by cases h <;> rfl)
    | worker w a _ h => exact hmove (by cases h <;> rfl)
    | download a _ h => exact hmove (by cases h <;> rfl)
    | sweep | kick | limit | limitIgnored | connectUpload | connectDownload => exact hmove rfl

lemma removed_mono (events : List JobEvent) (hk : k ∈ l.removed) :
    k ∈ (events.foldl Ledger.next l).removed := by
  induction events generalizing l with
  | nil => exact hk
  | cons e events ih =>
    have hnotes : l.notes <+: (l.next e).notes := by
      cases e with
      | created => exact List.prefix_refl _
      | passBegin | ready | ran | sent | removed => exact List.prefix_append _ _
    exact ih ((hnotes.filterMap _).subset hk)

/-- The job with number `k` is ready, and no more than `m` passes can end without its removal. -/
def Waits (s : Server) (l : Ledger) (key : JobKey) (k m : ℕ) : Prop :=
  ∃ q job, l.pending[q]? = some k ∧ s.pendingJobs[q]? = some job ∧ job.key = key ∧
    job.isReady = true ∧ q + s.processing.past q ≤ m

lemma Waits.step (hw : Waits s l key k m)
    (hok : ∀ job ∈ s.fails a, job.key ≠ key) (h : s.step a = some t) :
    k ∈ ((s.jobEvents a).foldl Ledger.next l).removed ∨
      ∃ m', Waits t ((s.jobEvents a).foldl Ledger.next l) key k m' ∧
        m' + (s.passEnds a).length = m := by
  obtain ⟨q, job, hk, hjob, rfl, hready, hm⟩ := hw
  by_cases ha : a = .processing .remove
  · subst ha
    simp only [Server.step] at h
    cases ProcessingRule.of_processingStep h with
    | remove dir i hpc =>
      have hevents : s.jobEvents (.processing .remove) = [.removed i] := by
        simp [Server.jobEvents, hpc]
      have hends : s.passEnds (.processing .remove) = [] := by simp [Server.passEnds, hpc]
      rw [hevents, hends]
      rw [hpc] at hm
      simp only [Processing.past] at hm
      rcases lt_trichotomy q i with hlt | rfl | hlt
      · refine .inr ⟨m, ⟨q, job, ?_, ?_, rfl, hready, ?_⟩, rfl⟩
        · simpa [Ledger.next, Ledger.note, List.getElem?_eraseIdx, hlt] using hk
        · simpa [List.getElem?_eraseIdx, hlt] using hjob
        · simpa [Processing.past, hlt, hlt.le] using hm
      · left
        simp [Ledger.next, Ledger.note, Ledger.removed, hk]
      · -- the job moves up by one
        have hle : ¬ q - 1 < i := by omega
        have hsucc : q - 1 + 1 = q := by omega
        refine .inr ⟨m, ⟨q - 1, job, ?_, ?_, rfl, hready, ?_⟩, rfl⟩
        · simpa [Ledger.next, Ledger.note, List.getElem?_eraseIdx, hle, hsucc] using hk
        · simpa [List.getElem?_eraseIdx, hle, hsucc] using hjob
        · simp only [Processing.past]
          split_ifs at hm ⊢ <;> omega
  · obtain ⟨job', hjob', hkey, hready'⟩ := job_step h ha hjob hready
    have hpast := past_step h ha hjob hready hok
    refine .inr ⟨m - (s.passEnds a).length,
      ⟨q, job', pending_step h ha hk, hjob', hkey, hready', by omega⟩, by omega⟩

lemma exists_prefix_of_removed (hk : k ∈ l.removed) : ∃ pre, pre ++ [.removed k] <+: l.notes := by
  obtain ⟨n, hn, hnk⟩ := List.mem_filterMap.mp hk
  obtain ⟨pre, post, hsplit⟩ := List.append_of_mem hn
  cases n with
  | removed k' =>
    obtain rfl : k' = k := Option.some.inj hnk
    exact ⟨pre, post, by rw [hsplit, List.append_assoc]; rfl⟩
  | passBegin | ready | ran | sent => cases hnk

lemma ofRun_concat (h : run Server.step (.init dir) as = some s) (a : Action) :
    Ledger.ofRun dir (as ++ [a]) = (s.jobEvents a).foldl Ledger.next (.ofRun dir as) := by
  rw [Ledger.ofRun, trace_concat a h, Ledger.ofEvents, List.foldl_append]
  rfl

lemma waits_of_run (h : run Server.step (.init dir) as = some s)
    (hw : Waits s (.ofRun dir as) key k m)
    (hok : Along Server.step (fun s a => ∀ job ∈ s.fails a, job.key ≠ key) s bs)
    (hrun : run Server.step s bs = some t) :
    k ∈ (Ledger.ofRun dir (as ++ bs)).removed ∨
      ∃ m', Waits t (.ofRun dir (as ++ bs)) key k m' ∧
        m' + (trace Server.step Server.passEnds s bs).length = m := by
  have key : Along Server.step (fun s a => ∀ job ∈ s.fails a, job.key ≠ key) s bs →
      k ∈ (Ledger.ofRun dir (as ++ bs)).removed ∨
        ∃ m', Waits t (.ofRun dir (as ++ bs)) key k m' ∧
          m' + (trace Server.step Server.passEnds s bs).length = m := by
    refine run_induction (P := fun bs t =>
      Along Server.step (fun s a => ∀ job ∈ s.fails a, job.key ≠ key) s bs →
        k ∈ (Ledger.ofRun dir (as ++ bs)).removed ∨
          ∃ m', Waits t (.ofRun dir (as ++ bs)) key k m' ∧
            m' + (trace Server.step Server.passEnds s bs).length = m) ?_ ?_ hrun
    · intro _
      rw [List.append_nil]
      exact .inr ⟨m, hw, rfl⟩
    · intro bs a t u hbs ha ih hok
      obtain ⟨hok, hoka⟩ := along_concat.mp hok
      have hall : run Server.step (.init dir) (as ++ bs) = some t := by
        rw [run_append, h]
        exact hbs
      rw [← List.append_assoc, ofRun_concat hall, trace_concat a hbs, List.length_append]
      rcases ih hok with hremoved | ⟨m₁, hw, hm₁⟩
      · exact .inl (removed_mono _ hremoved)
      · rcases hw.step (hoka t hbs) ha with hremoved | ⟨m₂, hw', hm₂⟩
        · exact .inl hremoved
        · exact .inr ⟨m₂, hw', by omega⟩
  exact key hok

/-- A job that is ready at index `p` of the table is run and removed before the end of the next
`p + 1` passes, one more if a pass has already gone past it, whatever the other threads and the
other jobs do, as long as `chdir` and `malloc` do not fail for a job with its key. -/
theorem ready_job_removed (h : run Server.step (.init dir) as = some s)
    (hk : (Ledger.ofRun dir as).pending[p]? = some k) (hjob : s.pendingJobs[p]? = some job)
    (hready : job.isReady = true)
    (hok : Along Server.step (fun s a => ∀ job' ∈ s.fails a, job'.key ≠ job.key) s bs)
    (hrun : run Server.step s bs = some t)
    (hends : p + s.processing.past p < (trace Server.step Server.passEnds s bs).length) :
    ∃ pre, pre ++ [.removed k] <+: (Ledger.ofRun dir (as ++ bs)).notes ∧
      (Ledger.ofRun dir (as ++ bs)).Processed k pre := by
  have hwaits : k ∈ (Ledger.ofRun dir (as ++ bs)).removed ∨
      ∃ m, Waits t (.ofRun dir (as ++ bs)) job.key k m ∧
        m + (trace Server.step Server.passEnds s bs).length = p + s.processing.past p :=
    waits_of_run h ⟨p, job, hk, hjob, rfl, hready, le_rfl⟩ hok hrun
  rcases hwaits with hremoved | ⟨m, -, hm⟩
  · have hinv : LedgerInv t (.ofRun dir (as ++ bs)) := by
      refine LedgerInv.of_run ?_
      rw [run_append, h]
      exact hrun
    obtain ⟨pre, hpre⟩ := exists_prefix_of_removed hremoved
    exact ⟨pre, hpre, hinv.history pre k hpre⟩
  · omega

/-- The job of `processRun`, from its last file on. -/
theorem ready_job_removed_processRun :
    ∃ pre, pre ++ [.removed 0] <+:
        (Ledger.ofRun [] (processRun.take 18 ++ processRun.drop 18)).notes ∧
      (Ledger.ofRun [] (processRun.take 18 ++ processRun.drop 18)).Processed 0 pre := by
  let job : PendingJob := ⟨Vector.replicate 16 1, ⟨1, 1⟩, 7, cstr "true", 1, 1, 0⟩
  obtain ⟨s, hs, hall⟩ := (Option.any_eq_true _ _).mp
    (show (run Server.step (.init []) (processRun.take 18)).any (fun s =>
      s.pendingJobs[0]? = some job ∧
      Along Server.step (fun s a => ∀ job' ∈ s.fails a, job'.key ≠ job.key) s
        (processRun.drop 18) ∧
      (run Server.step s (processRun.drop 18)).isSome = true ∧
      0 + s.processing.past 0
        < (trace Server.step Server.passEnds s (processRun.drop 18)).length) = true by
      decide +kernel)
  obtain ⟨hjob, hok, hrun, hends⟩ := of_decide_eq_true hall
  obtain ⟨t, ht⟩ := Option.isSome_iff_exists.mp hrun
  exact ready_job_removed hs (by decide +kernel) hjob rfl hok ht hends

end Waiting

end Pcd
