import Mathlib.Data.List.Lookmap
import PcdProject.Server.State

/-!
# The upload workers

`upload_thread_func` and `process_upload`, as the steps of one of the workers. A region under a
mutex is one step; a step that needs `jobs_mutex` is not enabled while `process_pending_jobs` holds
it.
-/

namespace Pcd

/-- A step of a worker, with what the system decides in it. -/
inductive WorkerAction where
  | pick
  | lookup
  | accept (ok : Bool)
  | openFile (ok : Bool)
  | recv (received written : ℕ)
  | hangup
  | close
  | update (now : ℤ)
  | finish

/-- `sizeof(buffer)` of the receive loop. -/
def CHUNK_SIZE : ℕ := 4096

/-- The first pending job with the key gets one more file. -/
def countFile (key : JobKey) (now : ℤ) (jobs : List PendingJob) : List PendingJob :=
  jobs.lookmap fun job =>
    if job.key = key then
      some { job with filesReceived := job.filesReceived + 1, lastUpdate := now }
    else none

lemma countFile_cons (key : JobKey) (now : ℤ) (job : PendingJob) (jobs : List PendingJob) :
    countFile key now (job :: jobs) =
      if job.key = key then
        { job with filesReceived := job.filesReceived + 1, lastUpdate := now } :: jobs
      else job :: countFile key now jobs := by
  unfold countFile
  rw [List.lookmap_cons]
  split_ifs <;> rfl

@[simp] lemma countFile_nil (key : JobKey) (now : ℤ) : countFile key now [] = [] := rfl

/-- A function of the jobs that looks neither at the counter nor at the time of the last update. -/
lemma map_countFile {β : Type*} (f : PendingJob → β)
    (hf : ∀ job n now, f { job with filesReceived := n, lastUpdate := now } = f job)
    (key : JobKey) (now : ℤ) (jobs : List PendingJob) :
    (countFile key now jobs).map f = jobs.map f := by
  induction jobs with
  | nil => rfl
  | cons job jobs ih =>
    rw [countFile_cons]
    split_ifs with hkey
    · rw [List.map_cons, List.map_cons, hf]
    · rw [List.map_cons, List.map_cons, ih]

/-- The counter is no part of the keys. -/
lemma map_key_countFile (key : JobKey) (now : ℤ) (jobs : List PendingJob) :
    (countFile key now jobs).map PendingJob.key = jobs.map PendingJob.key :=
  map_countFile PendingJob.key (fun _ _ _ => rfl) key now jobs

namespace Server

def setWorker (s : Server) (w : ℕ) (pc : Worker) : Server :=
  { s with workers := s.workers.set w pc }

/-- A step of worker `w`; `none` if it is not at this step or has to wait. -/
def workerStep (s : Server) (w : ℕ) (a : WorkerAction) : Option Server :=
  match s.workers[w]?, a with
  | some .waiting, .pick =>
    match s.uploadQueue with
    | []           => none
    | job :: queue =>
      if s.activeUploads ≥ s.maxUploads then none
      else some ({ s with
        uploadQueue := queue
        activeUploads := s.activeUploads + 1 }.setWorker w (.picked job))
  | some (.picked job), .lookup =>
    if s.processing.holdsJobsMutex then none
    else if s.pendingJobs.any fun p => p.key = job.key then some (s.setWorker w (.accepting job))
    else some (s.setWorker w (.finished job))
  | some (.accepting job), .accept ok =>
    if ok then
      match s.uploadBacklog with
      | []              => none
      | conn :: backlog =>
        some ({ s with uploadBacklog := backlog }.setWorker w (.opening job conn))
    else some (s.setWorker w (.finished job))
  | some (.opening job conn), .openFile ok =>
    if ok then some (s.setWorker w (.receiving job conn job.fileSize.toNat 0))
    else some (s.setWorker w (.finished job))
  | some (.receiving job conn remaining total), .recv received written =>
    if 0 < received ∧ received ≤ min CHUNK_SIZE remaining ∧ written ≤ received then
      if written = received then
        some (s.setWorker w (.receiving job conn (remaining - received) (total + received)))
      else some (s.setWorker w (.transferred job remaining total))
    else none
  | some (.receiving job _ remaining total), .hangup =>
    if 0 < remaining then some (s.setWorker w (.transferred job remaining total)) else none
  | some (.receiving job _ remaining total), .close =>
    if remaining = 0 then some (s.setWorker w (.transferred job remaining total)) else none
  | some (.transferred job _ _), .update now =>
    if s.processing.holdsJobsMutex then none
    else some ({ s with
      pendingJobs := countFile job.key now s.pendingJobs }.setWorker w (.finished job))
  | some (.finished _), .finish =>
    some ({ s with activeUploads := s.activeUploads - 1 }.setWorker w .waiting)
  | _, _ => none

end Server

/-! ### What a step changes -/

inductive WorkerRule (s : Server) (w : ℕ) : WorkerAction → Server → Prop where
  | pick (job : UploadJob) (queue : List UploadJob)
      (hpc : s.workers[w]? = some .waiting) (hqueue : s.uploadQueue = job :: queue)
      (hlt : s.activeUploads < s.maxUploads) :
      WorkerRule s w .pick
        ({ s with
          uploadQueue := queue
          activeUploads := s.activeUploads + 1 }.setWorker w (.picked job))
  | lookup (job : UploadJob) (pc : Worker)
      (hpc : s.workers[w]? = some (.picked job)) (hfree : s.processing.holdsJobsMutex = false)
      (hpc' : pc = .accepting job ∨ pc = .finished job) :
      WorkerRule s w .lookup (s.setWorker w pc)
  | accept (job : UploadJob) (conn : Connection) (backlog : List Connection)
      (hpc : s.workers[w]? = some (.accepting job)) (hconn : s.uploadBacklog = conn :: backlog) :
      WorkerRule s w (.accept true)
        ({ s with uploadBacklog := backlog }.setWorker w (.opening job conn))
  | acceptFail (job : UploadJob) (hpc : s.workers[w]? = some (.accepting job)) :
      WorkerRule s w (.accept false) (s.setWorker w (.finished job))
  | openFile (job : UploadJob) (conn : Connection)
      (hpc : s.workers[w]? = some (.opening job conn)) :
      WorkerRule s w (.openFile true) (s.setWorker w (.receiving job conn job.fileSize.toNat 0))
  | openFail (job : UploadJob) (conn : Connection)
      (hpc : s.workers[w]? = some (.opening job conn)) :
      WorkerRule s w (.openFile false) (s.setWorker w (.finished job))
  | recv (job : UploadJob) (conn : Connection) (remaining total received : ℕ)
      (hpc : s.workers[w]? = some (.receiving job conn remaining total)) (hpos : 0 < received)
      (hle : received ≤ remaining) :
      WorkerRule s w (.recv received received)
        (s.setWorker w (.receiving job conn (remaining - received) (total + received)))
  | shortWrite (job : UploadJob) (conn : Connection) (remaining total received written : ℕ)
      (hpc : s.workers[w]? = some (.receiving job conn remaining total)) (hpos : 0 < remaining)
      (hlt : written < received) :
      WorkerRule s w (.recv received written) (s.setWorker w (.transferred job remaining total))
  | hangup (job : UploadJob) (conn : Connection) (remaining total : ℕ)
      (hpc : s.workers[w]? = some (.receiving job conn remaining total)) (hpos : 0 < remaining) :
      WorkerRule s w .hangup (s.setWorker w (.transferred job remaining total))
  | close (job : UploadJob) (conn : Connection) (total : ℕ)
      (hpc : s.workers[w]? = some (.receiving job conn 0 total)) :
      WorkerRule s w .close (s.setWorker w (.transferred job 0 total))
  | update (job : UploadJob) (remaining total : ℕ) (now : ℤ)
      (hpc : s.workers[w]? = some (.transferred job remaining total))
      (hfree : s.processing.holdsJobsMutex = false) :
      WorkerRule s w (.update now)
        ({ s with
          pendingJobs := countFile job.key now s.pendingJobs }.setWorker w (.finished job))
  | finish (job : UploadJob) (hpc : s.workers[w]? = some (.finished job)) :
      WorkerRule s w .finish
        ({ s with activeUploads := s.activeUploads - 1 }.setWorker w .waiting)

lemma WorkerRule.of_workerStep {s t : Server} {w : ℕ} {a : WorkerAction}
    (h : s.workerStep w a = some t) : WorkerRule s w a t := by
  unfold Server.workerStep at h
  split at h
  · rename_i hpc
    split at h
    · cases h
    · rename_i job queue hqueue
      split_ifs at h with hge
      cases h
      exact .pick job queue hpc hqueue (not_le.mp hge)
  · rename_i job hpc
    split_ifs at h with hheld hfound <;> cases h
    · exact .lookup job _ hpc (by simpa using hheld) (.inl rfl)
    · exact .lookup job _ hpc (by simpa using hheld) (.inr rfl)
  · rename_i job ok hpc
    split_ifs at h with hok
    · subst hok
      split at h
      · cases h
      · rename_i conn backlog hconn
        cases h
        exact .accept job conn backlog hpc hconn
    · cases h
      rw [Bool.not_eq_true] at hok
      subst hok
      exact .acceptFail job hpc
  · rename_i job conn ok hpc
    split_ifs at h with hok
    · cases h
      subst hok
      exact .openFile job conn hpc
    · cases h
      rw [Bool.not_eq_true] at hok
      subst hok
      exact .openFail job conn hpc
  · rename_i job conn remaining total received written hpc
    split_ifs at h with hguard hall
    · obtain ⟨hpos, hle, -⟩ := hguard
      cases h
      subst hall
      exact .recv job conn remaining total written hpc hpos (hle.trans (min_le_right _ _))
    · obtain ⟨hpos, hle, hwritten⟩ := hguard
      cases h
      have hrem := hle.trans (min_le_right _ _)
      exact .shortWrite job conn remaining total received written hpc (by omega) (by omega)
  · rename_i job conn remaining total hpc
    split_ifs at h with hpos
    cases h
    exact .hangup job conn remaining total hpc hpos
  · rename_i job conn remaining total hpc
    split_ifs at h with hzero
    cases h
    subst hzero
    exact .close job conn total hpc
  · rename_i job remaining total now hpc
    split_ifs at h with hheld
    cases h
    exact .update job remaining total now hpc (by simpa using hheld)
  · rename_i job hpc
    cases h
    exact .finish job hpc
  · cases h

end Pcd
