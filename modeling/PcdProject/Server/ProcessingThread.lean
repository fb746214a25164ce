import PcdProject.Server.State

/-!
# The processing thread

`process_pending_jobs` in steps. It holds `jobs_mutex` from `lock` to the end of the pass, the
execution of the commands included, and it changes the working directory of the whole process.
-/

namespace Pcd

/-- A step of `process_pending_jobs`, with what the system decides in it. -/
inductive ProcessingAction where
  | getcwd (ok : Bool)
  | lock
  | check
  | chdir (ok : Bool)
  | system (ret : ℤ)
  | malloc (ok : Bool)
  | sendto
  | remove
  | chdirBack (ok : Bool)

/-- `sizeof(original_dir)` -/
def ORIGINAL_DIR_SIZE : ℕ := 512

def jobResult (job : PendingJob) (status : StatusCode) : Reply :=
  if status = .ok then .jobResult job.jobId status "Job completed successfully"
  else .jobResult job.jobId status "Job execution failed"

namespace Server

/-- A step of `process_pending_jobs`; `none` if it is not at this step. -/
def processingStep (s : Server) (a : ProcessingAction) : Option Server :=
  match s.processing, a with
  | .sleeping, .getcwd ok =>
    if ok && s.cwd.length < ORIGINAL_DIR_SIZE then some { s with processing := .locking s.cwd }
    else some s
  | .locking originalDir, .lock => some { s with processing := .scanning originalDir 0 }
  | .scanning originalDir i, .check =>
    match s.pendingJobs[i]? with
    | none     => some { s with processing := .sleeping }
    | some job =>
      if job.filesReceived ≥ job.fileCount then
        some { s with processing := .entering originalDir i }
      else some { s with processing := .scanning originalDir (i + 1) }
  | .entering originalDir i, .chdir ok =>
    if ok then
      (s.pendingJobs[i]?).map fun job =>
        { s with
          cwd := resolve s.cwd (dirPath job.clientId job.jobId)
          processing := .running originalDir i }
    else some { s with processing := .scanning originalDir (i + 1) }
  | .running originalDir i, .system ret =>
    some { s with processing := .allocating originalDir i (if ret = 0 then .ok else .error) }
  | .allocating originalDir i status, .malloc ok =>
    if ok then some { s with processing := .sending originalDir i status }
    else some { s with processing := .returning originalDir i }
  | .sending originalDir i status, .sendto =>
    (s.pendingJobs[i]?).map fun job =>
      { s with
        outbox := s.outbox ++ [(job.clientAddr, jobResult job status)]
        processing := .removing originalDir i }
  | .removing originalDir i, .remove =>
    some { s with
      pendingJobs := s.pendingJobs.eraseIdx i
      processing := .returning originalDir i }
  | .returning originalDir i, .chdirBack ok =>
    some { s with
      cwd := if ok then originalDir else s.cwd
      processing := .scanning originalDir (i + 1) }
  | _, _ => none

end Server

/-! ### What a step changes -/

inductive ProcessingRule (s : Server) : ProcessingAction → Server → Prop where
  | getcwd (hpc : s.processing = .sleeping) :
      ProcessingRule s (.getcwd true) { s with processing := .locking s.cwd }
  | getcwdFail (ok : Bool) (hpc : s.processing = .sleeping) : ProcessingRule s (.getcwd ok) s
  | lock (originalDir : Bytes) (hpc : s.processing = .locking originalDir) :
      ProcessingRule s .lock { s with processing := .scanning originalDir 0 }
  | unlock (originalDir : Bytes) (i : ℕ) (hpc : s.processing = .scanning originalDir i) :
      ProcessingRule s .check { s with processing := .sleeping }
  | ready (originalDir : Bytes) (i : ℕ) (job : PendingJob)
      (hpc : s.processing = .scanning originalDir i) (hjob : s.pendingJobs[i]? = some job)
      (hready : job.fileCount ≤ job.filesReceived) :
      ProcessingRule s .check { s with processing := .entering originalDir i }
  | notReady (originalDir : Bytes) (i : ℕ) (hpc : s.processing = .scanning originalDir i) :
      ProcessingRule s .check { s with processing := .scanning originalDir (i + 1) }
  | chdir (originalDir : Bytes) (i : ℕ) (job : PendingJob)
      (hpc : s.processing = .entering originalDir i) (hjob : s.pendingJobs[i]? = some job) :
      ProcessingRule s (.chdir true)
        { s with
          cwd := resolve s.cwd (dirPath job.clientId job.jobId)
          processing := .running originalDir i }
  | chdirFail (originalDir : Bytes) (i : ℕ) (hpc : s.processing = .entering originalDir i) :
      ProcessingRule s (.chdir false) { s with processing := .scanning originalDir (i + 1) }
  | system (originalDir : Bytes) (i : ℕ) (ret : ℤ) (status : StatusCode)
      (hpc : s.processing = .running originalDir i) :
      ProcessingRule s (.system ret) { s with processing := .allocating originalDir i status }
  | malloc (originalDir : Bytes) (i : ℕ) (status : StatusCode)
      (hpc : s.processing = .allocating originalDir i status) :
      ProcessingRule s (.malloc true) { s with processing := .sending originalDir i status }
  | mallocFail (originalDir : Bytes) (i : ℕ) (status : StatusCode)
      (hpc : s.processing = .allocating originalDir i status) :
      ProcessingRule s (.malloc false) { s with processing := .returning originalDir i }
  | sendto (originalDir : Bytes) (i : ℕ) (status : StatusCode) (job : PendingJob)
      (hpc : s.processing = .sending originalDir i status) (hjob : s.pendingJobs[i]? = some job) :
      ProcessingRule s .sendto
        { s with
          outbox := s.outbox ++ [(job.clientAddr, jobResult job status)]
          processing := .removing originalDir i }
  | remove (originalDir : Bytes) (i : ℕ) (hpc : s.processing = .removing originalDir i) :
      ProcessingRule s .remove
        { s with
          pendingJobs := s.pendingJobs.eraseIdx i
          processing := .returning originalDir i }
  | chdirBack (originalDir : Bytes) (i : ℕ) (ok : Bool)
      (hpc : s.processing = .returning originalDir i) :
      ProcessingRule s (.chdirBack ok)
        { s with
          cwd := if ok then originalDir else s.cwd
          processing := .scanning originalDir (i + 1) }

lemma ProcessingRule.of_processingStep {s t : Server} {a : ProcessingAction}
    (h : s.processingStep a = some t) : ProcessingRule s a t := by
  unfold Server.processingStep at h
  split at h
  · rename_i ok hpc
    split_ifs at h with hok
    · cases h
      obtain ⟨rfl, -⟩ := Bool.and_eq_true_iff.mp hok
      exact .getcwd hpc
    · cases h
      exact .getcwdFail ok hpc
  · rename_i originalDir hpc
    cases h
    exact .lock originalDir hpc
  · rename_i originalDir i hpc
    split at h
    · cases h
      exact .unlock originalDir i hpc
    · rename_i job hjob
      split_ifs at h with hready <;> cases h
      · exact .ready originalDir i job hpc hjob hready
      · exact .notReady originalDir i hpc
  · rename_i originalDir i ok hpc
    split_ifs at h with hok
    · obtain ⟨job, hjob, rfl⟩ := Option.map_eq_some_iff.mp h
      subst hok
      exact .chdir originalDir i job hpc hjob
    · cases h
      rw [Bool.not_eq_true] at hok
      subst hok
      exact .chdirFail originalDir i hpc
  · rename_i originalDir i ret hpc
    cases h
    exact .system originalDir i ret _ hpc
  · rename_i originalDir i status ok hpc
    split_ifs at h with hok
    · cases h
      subst hok
      exact .malloc originalDir i status hpc
    · cases h
      rw [Bool.not_eq_true] at hok
      subst hok
      exact .mallocFail originalDir i status hpc
  · rename_i originalDir i status hpc
    obtain ⟨job, hjob, rfl⟩ := Option.map_eq_some_iff.mp h
    exact .sendto originalDir i status job hpc hjob
  · rename_i originalDir i hpc
    cases h
    exact .remove originalDir i hpc
  · rename_i originalDir i ok hpc
    cases h
    exact .chdirBack originalDir i ok hpc
  · cases h

end Pcd
