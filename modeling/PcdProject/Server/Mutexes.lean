import PcdProject.Core.LockProgram

/-!
# The mutexes of the server

What the threads of the server do with the seven mutexes, function by function. The log queue's
mutex is acquired inside of the critical sections of `clients_mutex` and `jobs_mutex`, and
`active_uploads_mutex` inside of the one of the upload queue; with these two ranked above the other
five every thread acquires mutexes in the order of their ranks.
-/

namespace Pcd

open LockProgram LockProgram.Code Relation Transition

inductive Mutex where
  | clients | jobs | uploadQueue | activeUploads | downloadQueue | maxLimits | log
  deriving DecidableEq, Repr

def Mutex.rank : Mutex → ℕ
  | .clients | .jobs | .uploadQueue | .downloadQueue | .maxLimits => 0
  | .activeUploads | .log => 1

namespace Locking

/-! ### `log_queue.c` -/

def logQueuePush : Code Mutex := call (block [lock .log, unlock .log])

/-- The two waits are those without and with a timeout, the first `ret` is the one after
`ETIMEDOUT`, the second the one after an error. -/
def logQueuePopTimed : Code Mutex :=
  call (block [
    lock .log,
    loop (block [
      choice (wait .log) (block [wait .log, cond (block [unlock .log, ret])]),
      cond (block [unlock .log, ret])]),
    unlock .log,
    ret])

/-! ### `admin_handler.c` -/

def logAppend : Code Mutex := call logQueuePush

def listClients : Code Mutex :=
  call (block [lock .clients, cond (block [unlock .clients, ret]), loop skip, unlock .clients])

def setMaxUploads : Code Mutex := call (block [cond ret, lock .maxLimits, unlock .maxLimits])

def kickClientById : Code Mutex :=
  call (block [
    lock .clients,
    loop (cond (block [unlock .clients, ret])),
    unlock .clients,
    ret])

def showProcessingQueue : Code Mutex :=
  call (block [lock .jobs, cond (block [unlock .jobs, ret]), loop skip, unlock .jobs])

def handleAdminCommand : Code Mutex :=
  call (block [
    cond ret,
    switch [
      block [cond ret, kickClientById],
      block [cond ret, setMaxUploads],
      listClients,
      showProcessingQueue]])

/-- The inner loop serves one connection; it is left in front of the pop, behind a pop, in front of
the command or behind it. -/
def adminThread : Code Mutex :=
  loop (loop (block [loop logQueuePopTimed, cond handleAdminCommand]))

/-! ### `job_handler.c` and `upload_handler.c` -/

def createJob : Code Mutex :=
  call (block [
    cond ret,
    lock .jobs,
    cond (block [unlock .jobs, ret]),
    unlock .jobs,
    ret])

def handleUploadRequest : Code Mutex := call (block [lock .uploadQueue, unlock .uploadQueue])

def handleDownloadRequest : Code Mutex :=
  call (block [cond ret, lock .downloadQueue, unlock .downloadQueue])

def processUpload : Code Mutex :=
  call (block [
    lock .jobs,
    unlock .jobs,
    cond ret, -- no job found
    cond ret, -- `accept` failed
    cond ret, -- `open` failed
    loop skip,
    lock .jobs,
    unlock .jobs])

def uploadThreadFunc : Code Mutex :=
  loop (block [
    lock .uploadQueue,
    loop (wait .uploadQueue),
    lock .activeUploads,
    unlock .activeUploads,
    unlock .uploadQueue,
    processUpload,
    lock .activeUploads,
    unlock .activeUploads])

/-! ### `processing.c` -/

/-- A pass goes on with the next job when a job is not ready, when `chdir` fails and at the end of
the body. -/
def processPendingJobs : Code Mutex :=
  call (block [
    cond ret,
    lock .jobs,
    loop (cond (block [logAppend, cond logAppend])),
    unlock .jobs])

def processingThread : Code Mutex := loop processPendingJobs

/-! ### `server.c` -/

def cleanupDeadClients : Code Mutex := call (block [lock .clients, loop skip, unlock .clients])

def handleUdpMessage : Code Mutex :=
  call (block [
    cond ret,
    switch [
      block [lock .clients, logAppend, unlock .clients],
      block [lock .clients, loop skip, cond logAppend, unlock .clients],
      cond (block [createJob, cond (choice logAppend logAppend)]),
      cond handleUploadRequest,
      cond handleDownloadRequest]])

def clientThread : Code Mutex := loop (cond (block [handleUdpMessage, cond cleanupDeadClients]))

def watcherThread : Code Mutex := loop cleanupDeadClients

def downloadThread : Code Mutex :=
  loop (cond (block [
    lock .downloadQueue,
    loop (wait .downloadQueue),
    unlock .downloadQueue,
    lock .clients,
    loop skip,
    unlock .clients,
    loop skip]))

/-- The threads of the server, with `n` upload threads. -/
def programs (n : ℕ) : List (Code Mutex) :=
  [clientThread, watcherThread, processingThread, downloadThread, adminThread]
    ++ List.replicate n uploadThreadFunc

/-! ### Main result -/

lemma ordered_programs (n : ℕ) : ∀ c ∈ programs n, Ordered Mutex.rank c := by
  intro c hc
  rcases List.mem_append.mp hc with hc | hc
  · have hfixed : ∀ c ∈ [clientThread, watcherThread, processingThread, downloadThread,
        adminThread], Ordered Mutex.rank c := by decide
    exact hfixed c hc
  · rw [List.eq_of_mem_replicate hc]
    decide

end Locking

/-- No deadlock: in every state of every run, whatever the number of upload threads, no threads are
blocked on mutexes in a circle, and no thread is about to acquire a mutex that it holds. -/
theorem mutexes_acyclic (n : ℕ) (moves : List Move) :
    Always State.step
      (fun s => (∀ i, ¬ TransGen s.WaitsFor i i) ∧ ∀ i m, s.wants i = some m → s.owner m ≠ some i)
      (.init (Locking.programs n)) moves := by
  intro pre s _ hrun
  have hs : AllOrdered Mutex.rank s := run_invariant (fun _ _ _ hs h => hs.step h)
    (allOrdered_init (Locking.ordered_programs n)) hrun
  constructor
  · exact hs.acyclic
  · intro i m hwants
    exact hs.owner_ne hwants

end Pcd
