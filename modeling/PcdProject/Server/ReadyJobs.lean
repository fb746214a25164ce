import Mathlib.Algebra.BigOperators.Group.List.Basic
import Mathlib.Algebra.GroupWithZero.Nat
import PcdProject.Server.JobTable

/-!
# Counted files and stored files

`process_pending_jobs` takes a job as ready by its counter `files_received`. The counter is tied to
the uploads that were stored whole, unless a transfer that ended early is counted.
-/

namespace Pcd

open Transition

/-- The index of the job between the readiness test and its command. -/
def Processing.executing : Processing → Option ℕ
  | .entering _ i | .running _ i => some i
  | _ => none

namespace Server

/-- The job whose command the next step of `process_pending_jobs` passes to `system`. -/
def commandJob (s : Server) : Option PendingJob :=
  match s.processing with
  | .running _ i => s.pendingJobs[i]?
  | _            => none

/-- The upload that a worker finishes with all bytes of the file written. -/
def storedUploads (s : Server) (a : Action) : List UploadJob :=
  match a with
  | .worker w (.update _) =>
    match s.workers[w]? with
    | some (.transferred job _ total) => if total = job.fileSize.toNat then [job] else []
    | _ => []
  | _ => []

/-- The key that the final update of a transfer looks for, if the transfer ended early. -/
def cutShort (s : Server) (a : Action) : Option JobKey :=
  match a with
  | .worker w (.update _) =>
    match s.workers[w]? with
    | some (.transferred job remaining _) => if remaining = 0 then none else some job.key
    | _ => none
  | _ => none

/-- If the step is the final update of a transfer that ended early, it finds no pending job. -/
def CountsWhole (s : Server) (a : Action) : Prop := ∀ key ∈ s.cutShort a, key ∉ s.pendingKeys

instance (s : Server) (a : Action) : Decidable (s.CountsWhole a) :=
  inferInstanceAs (Decidable (∀ key ∈ s.cutShort a, key ∉ s.pendingKeys))

end Server

/-! ### The receive loop -/

/-- What is received and what remains is the announced size. -/
def Worker.Accounted : Worker → Prop
  | .receiving job _ remaining total | .transferred job remaining total =>
    remaining + total = job.fileSize.toNat
  | _ => True

lemma Worker.Accounted.step {s t : Server} {w : ℕ} {a : WorkerAction}
    (hs : ∀ pc ∈ s.workers, Worker.Accounted pc) (h : WorkerRule s w a t) :
    ∀ pc ∈ t.workers, Worker.Accounted pc := by
  have set : ∀ pc', Worker.Accounted pc' → ∀ pc ∈ s.workers.set w pc', Worker.Accounted pc := by
    intro pc' hpc' pc hpc
    rcases List.mem_or_eq_of_mem_set hpc with hpc | rfl
    · exact hs pc hpc
    · exact hpc'
  have old : ∀ {pc}, s.workers[w]? = some pc → Worker.Accounted pc := by
    intro pc hpc
    exact hs pc (List.mem_of_getElem? hpc)
  cases h with
  | lookup job pc hpc hfree hpc' => rcases hpc' with rfl | rfl <;> exact set _ trivial
  | openFile job conn hpc => exact set _ (Nat.add_zero _)
  | recv job conn remaining total received hpc hpos hle =>
    have hsum := old hpc
    refine set _ ?_
    simp only [Worker.Accounted] at hsum ⊢
    omega
  | shortWrite job conn remaining total received written hpc
  | hangup job conn remaining total hpc | close job conn total hpc =>
    have hsum := old hpc
    exact set _ hsum
  | pick | accept | acceptFail | openFail | update | finish => exact set _ trivial

/-! ### The counters -/

/-- The files counted for a key. -/
def filesCounted (jobs : List PendingJob) (key : JobKey) : ℕ :=
  (jobs.map fun job => if job.key = key then job.filesReceived else 0).sum

@[simp] lemma filesCounted_nil (key : JobKey) : filesCounted [] key = 0 := rfl

@[simp] lemma filesCounted_cons (job : PendingJob) (jobs : List PendingJob) (key : JobKey) :
    filesCounted (job :: jobs) key =
      (if job.key = key then job.filesReceived else 0) + filesCounted jobs key := by
  simp [filesCounted]

lemma filesCounted_append (jobs jobs' : List PendingJob) (key : JobKey) :
    filesCounted (jobs ++ jobs') key = filesCounted jobs key + filesCounted jobs' key := by
  simp [filesCounted]

lemma filesCounted_eraseIdx_le (jobs : List PendingJob) (i : ℕ) (key : JobKey) :
    filesCounted (jobs.eraseIdx i) key ≤ filesCounted jobs key := by
  induction jobs generalizing i with
  | nil => simp
  | cons job jobs ih =>
    cases i with
    | zero => simp
    | succ i =>
      rw [List.eraseIdx_cons_succ, filesCounted_cons, filesCounted_cons]
      exact Nat.add_le_add_left (ih i) _

lemma filesReceived_le_filesCounted {jobs : List PendingJob} {job : PendingJob} (h : job ∈ jobs) :
    job.filesReceived ≤ filesCounted jobs job.key := by
  induction jobs with
  | nil => simp at h
  | cons x jobs ih =>
    rw [filesCounted_cons]
    rcases List.mem_cons.mp h with rfl | h
    · simp
    · exact (ih h).trans (Nat.le_add_left _ _)

/-- A final update counts one file, for its own key, if a job with the key is pending. -/
lemma filesCounted_countFile (key key' : JobKey) (now : ℤ) (jobs : List PendingJob) :
    filesCounted (countFile key now jobs) key' =
      filesCounted jobs key' +
        if key = key' ∧ key ∈ jobs.map PendingJob.key then 1 else 0 := by
  induction jobs with
  | nil => simp
  | cons job jobs ih =>
    rw [countFile_cons]
    by_cases hkey : job.key = key
    · subst hkey
      by_cases hkey' : job.key = key'
      · subst hkey'
        have hkey'' : PendingJob.key { job with filesReceived := job.filesReceived + 1, lastUpdate := now }
            = job.key := rfl
        simp only [if_true, filesCounted_cons, hkey'', List.map_cons, List.mem_cons_self, and_self]
        omega
      · have hkey'' : PendingJob.key { job with filesReceived := job.filesReceived + 1, lastUpdate := now }
            ≠ key' := hkey'
        simp [hkey', hkey'']
    · have hmem : key ∈ (job :: jobs).map PendingJob.key ↔ key ∈ jobs.map PendingJob.key := by
        simp [Ne.symm hkey]
      rw [if_neg hkey, filesCounted_cons, filesCounted_cons, ih]
      simp only [hmem]
      omega

/-! ### The invariant -/

/-- No more files are counted for a key than uploads with the key are stored, and the job between
its test and its command is ready. -/
structure CountInv (s : Server) (stored : List UploadJob) : Prop where
  accounted : ∀ pc ∈ s.workers, Worker.Accounted pc
  counted   : ∀ key, filesCounted s.pendingJobs key ≤ stored.countP fun job => job.key = key
  ready     : ∀ i ∈ s.processing.executing, ∀ job, s.pendingJobs[i]? = some job →
    job.fileCount ≤ job.filesReceived

namespace CountInv

variable {s t : Server} {a : Action} {stored : List UploadJob}

lemma init (dir : Bytes) : CountInv (Server.init dir) [] where
  accounted := by
    intro pc hpc
    rw [List.eq_of_mem_replicate hpc]
    trivial
  counted := fun _ => le_rfl
  ready := by simp [Server.init, Processing.executing]

lemma accounted_step (hs : ∀ pc ∈ s.workers, Worker.Accounted pc) (h : s.step a = some t) :
    ∀ pc ∈ t.workers, Worker.Accounted pc := by
  cases SystemRule.of_step h with
  | worker w a _ h => exact Worker.Accounted.step hs h
  | client a _ h => cases h <;> exact hs
  | processing a _ h => cases h <;> exact hs
  | download a _ h => cases h <;> exact hs
  | sweep | kick | limit | limitIgnored | connectUpload | connectDownload => exact hs

lemma counted_step (hs : CountInv s stored) (hC : s.CountsWhole a) (h : s.step a = some t)
    (key : JobKey) :
    filesCounted t.pendingJobs key ≤
      (stored ++ s.storedUploads a).countP fun job => job.key = key := by
  have hkey := hs.counted key
  rw [List.countP_append]
  cases PendingRule.of_step h with
  | keep hjobs =>
    rw [hjobs]
    omega
  | append req cmd src now hpc ha hjobs =>
    have hnew : filesCounted [PendingJob.create req cmd src now] key = 0 := by
      simp [PendingJob.create]
    rw [hjobs, filesCounted_append, hnew]
    omega
  | count w job remaining total now hpc ha hjobs =>
    have hsum : remaining + total = job.fileSize.toNat :=
      hs.accounted _ (List.mem_of_getElem? hpc)
    rw [hjobs, filesCounted_countFile, ha]
    split_ifs with hcount
    · -- the transfer is counted, so that it did not end early
      obtain ⟨rfl, hmem⟩ := hcount
      have hzero : remaining = 0 := by
        by_contra hne
        exact hC job.key (by simp [ha, Server.cutShort, hpc, hne]) hmem
      have htotal : total = job.fileSize.toNat := by omega
      simp only [Server.storedUploads, hpc, htotal, if_true, List.countP_singleton, decide_true]
      omega
    · omega
  | remove i ha hjobs =>
    rw [hjobs]
    have hle := filesCounted_eraseIdx_le s.pendingJobs i key
    omega

/-- While `process_pending_jobs` is between the test and the command, only it moves the table. -/
lemma ready_step (hs : CountInv s stored) (h : s.step a = some t) :
    ∀ i ∈ t.processing.executing, ∀ job, t.pendingJobs[i]? = some job →
      job.fileCount ≤ job.filesReceived := by
  have locked : s.processing.holdsJobsMutex = false → ∀ i, i ∉ s.processing.executing := by
    intro hfree i hi
    cases hproc : s.processing <;> simp_all [Processing.holdsJobsMutex, Processing.executing]
  cases SystemRule.of_step h with
  | processing a _ h =>
    cases h with
    | ready originalDir i job hpc hjob hready =>
      intro i' hi' job' hjob'
      cases hi'
      cases hjob.symm.trans hjob'
      exact hready
    | chdir originalDir i job hpc hjob =>
      intro i' hi' job' hjob'
      cases hi'
      exact hs.ready i (by simp [hpc, Processing.executing]) job' hjob'
    | getcwdFail ok hpc => exact hs.ready
    | getcwd | lock | unlock | notReady | chdirFail | system | malloc | mallocFail | sendto
    | remove | chdirBack => simp [Processing.executing]
  | client a _ h =>
    cases h with
    | appendJob req cmd src now hpc hfree =>
      intro i hi
      exact absurd hi (locked hfree i)
    | move | clients | enqueueUpload | enqueueDownload => exact hs.ready
  | worker w a _ h =>
    cases h with
    | update job remaining total now hpc hfree =>
      intro i hi
      exact absurd hi (locked hfree i)
    | pick | lookup | accept | acceptFail | openFile | openFail | recv | shortWrite | hangup
    | close | finish => exact hs.ready
  | download a _ h => cases h <;> exact hs.ready
  | sweep | kick | limit | limitIgnored | connectUpload | connectDownload => exact hs.ready

lemma step (hs : CountInv s stored) (hC : s.CountsWhole a) (h : s.step a = some t) :
    CountInv t (stored ++ s.storedUploads a) where
  accounted := accounted_step hs.accounted h
  counted := hs.counted_step hC h
  ready := hs.ready_step h

end CountInv

/-- In every run in which no transfer that ended early is counted for a pending job, the command of
a job is executed only after `file_count` uploads with its key were stored whole. -/
theorem fileCount_le_stored {dir : Bytes} {as : List Action} {s : Server}
    (h : run Server.step (.init dir) as = some s)
    (hC : Along Server.step Server.CountsWhole (.init dir) as) (job : PendingJob)
    (hjob : s.commandJob = some job) :
    job.fileCount ≤ (trace Server.step Server.storedUploads (.init dir) as).countP
      fun upload => upload.key = job.key := by
  have hinv : CountInv s (trace Server.step Server.storedUploads (.init dir) as) :=
    along_trace_invariant (CountInv.init dir) (fun _ _ _ _ hs hC h => hs.step hC h) hC h
  unfold Server.commandJob at hjob
  split at hjob
  · rename_i originalDir i hproc
    have hready := hinv.ready i (by simp [hproc, Processing.executing]) job hjob
    have hmem := filesReceived_le_filesCounted (List.mem_of_getElem? hjob)
    exact hready.trans (hmem.trans (hinv.counted job.key))
  · cases hjob

/-- The job of `jobRun`, one upload for it with the given transfer, and the processing of the job
up to its command. -/
def transferRun (transfer : List WorkerAction) : List Action :=
  let req : UploadRequest := ⟨2, Vector.replicate 16 1, 7, 100, 1⟩
  jobRun false
    ++ [.client (.receive (fillBuffer (req.datagram 0 (cstr "a")) 0) 49 ⟨1, 1⟩ 0
        (Vector.replicate 16 0)),
      .client (.enqueue 0), .client (.reply true), .worker 0 .pick, .worker 0 .lookup,
      .connectUpload ⟨0, ⟨1, 2⟩⟩, .worker 0 (.accept true), .worker 0 (.openFile true)]
    ++ transfer.map (.worker 0)
    ++ [.worker 0 (.update 0), .worker 0 .finish, .processing (.getcwd true), .processing .lock,
      .processing .check, .processing (.chdir true)]

theorem fileCount_le_stored_transferRun :
    ∃ s job, run Server.step (.init []) (transferRun [.recv 60 60, .recv 40 40, .close]) = some s ∧
      s.commandJob = some job ∧
      job.fileCount ≤ (trace Server.step Server.storedUploads (.init [])
        (transferRun [.recv 60 60, .recv 40 40, .close])).countP
          fun upload => upload.key = job.key := by
  obtain ⟨s, hs, hjob⟩ := Option.map_eq_some_iff.mp
    (show (run Server.step (.init []) (transferRun [.recv 60 60, .recv 40 40, .close])).map
      (fun s => s.commandJob.isSome) = some true by decide +kernel)
  obtain ⟨job, hjob⟩ := Option.isSome_iff_exists.mp hjob
  exact ⟨s, job, hs, hjob, fileCount_le_stored hs (by decide +kernel) job hjob⟩

/-- The command is executed although the connection of the only upload was closed after 60 of 100
bytes. -/
theorem not_stored_hangup :
    ¬ ∀ dir as s, run Server.step (.init dir) as = some s → ∀ job, s.commandJob = some job →
      job.fileCount ≤ (trace Server.step Server.storedUploads (.init dir) as).countP
        fun upload => upload.key = job.key := by
  intro h
  obtain ⟨s, hs, hjob⟩ := Option.map_eq_some_iff.mp
    (show (run Server.step (.init []) (transferRun [.recv 60 60, .hangup])).map
      (fun s => s.commandJob.map PendingJob.fileCount) = some (some 1) by decide +kernel)
  obtain ⟨job, hjob, hcount⟩ := Option.map_eq_some_iff.mp hjob
  have hstored : trace Server.step Server.storedUploads (.init [])
      (transferRun [.recv 60 60, .hangup]) = [] := by decide +kernel
  have hle := h [] _ s hs job hjob
  rw [hstored, hcount] at hle
  simp at hle

end Pcd
