import Mathlib.Data.List.Nodup
import PcdProject.Protocol.Requests
import PcdProject.Server.System

/-!
# The table of the pending jobs

How the steps of the threads change `pending_jobs`, and when its keys stay distinct.
-/

namespace Pcd

open Transition

namespace Server

def pendingKeys (s : Server) : List JobKey := s.pendingJobs.map PendingJob.key

/-- No two pending jobs have the same client id and job id. -/
def UniqueKeys (s : Server) : Prop := s.pendingKeys.Nodup

/-- The key of the job that the step makes `create_job` append. -/
def appendedKey (s : Server) (a : Action) : Option JobKey :=
  match s.clientThread, a with
  | .jobAppend req _ _, .client (.append true _) => some (req.clientId, req.jobId)
  | _, _ => none

/-- If the step appends a job, no pending job has its key. -/
def AppendsFresh (s : Server) (a : Action) : Prop := ∀ key ∈ s.appendedKey a, key ∉ s.pendingKeys

instance (s : Server) (a : Action) : Decidable (s.AppendsFresh a) :=
  inferInstanceAs (Decidable (∀ key ∈ s.appendedKey a, key ∉ s.pendingKeys))

end Server

/-! ### The steps, as far as pending jobs go -/

inductive PendingRule (s t : Server) (a : Action) : Prop where
  | keep (hjobs : t.pendingJobs = s.pendingJobs)
  | append (req : JobRequest) (cmd : Bytes) (src : SockAddr) (now : ℤ)
      (hpc : s.clientThread = .jobAppend req cmd src) (ha : a = .client (.append true now))
      (hjobs : t.pendingJobs = s.pendingJobs ++ [.create req cmd src now])
  | count (w : ℕ) (job : UploadJob) (remaining total : ℕ) (now : ℤ)
      (hpc : s.workers[w]? = some (.transferred job remaining total))
      (ha : a = .worker w (.update now))
      (hjobs : t.pendingJobs = countFile job.key now s.pendingJobs)
  | remove (i : ℕ) (ha : a = .processing .remove) (hjobs : t.pendingJobs = s.pendingJobs.eraseIdx i)

lemma PendingRule.of_step {s t : Server} {a : Action} (h : s.step a = some t) :
    PendingRule s t a := by
  cases SystemRule.of_step h with
  | client a _ h =>
    cases h with
    | appendJob req cmd src now hpc hfree => exact .append req cmd src now hpc rfl rfl
    | move | clients | enqueueUpload | enqueueDownload => exact .keep rfl
  | worker w a _ h =>
    cases h with
    | update job remaining total now hpc hfree =>
      exact .count w job remaining total now hpc rfl rfl
    | pick | lookup | accept | acceptFail | openFile | openFail | recv | shortWrite | hangup
    | close | finish => exact .keep rfl
  | processing a _ h =>
    cases h with
    | remove originalDir i hpc => exact .remove i rfl rfl
    | getcwd | getcwdFail | lock | unlock | ready | notReady | chdir | chdirFail | system | malloc
    | mallocFail | sendto | chdirBack => exact .keep rfl
  | download a _ h => cases h <;> exact .keep rfl
  | sweep | kick | limit | limitIgnored | connectUpload | connectDownload => exact .keep rfl

/-! ### Distinct keys -/

/-- A key appended to the table. -/
lemma nodup_keys_append {jobs : List PendingJob} {req : JobRequest} {cmd : Bytes} {src : SockAddr}
    {now : ℤ} :
    ((jobs ++ [PendingJob.create req cmd src now]).map PendingJob.key).Nodup ↔
      (req.clientId, req.jobId) ∉ jobs.map PendingJob.key ∧ (jobs.map PendingJob.key).Nodup := by
  rw [List.map_append, ← List.nodup_concat, List.concat_eq_append]
  rfl

/-- Only `create_job` can bring a key into the table twice. -/
lemma Server.UniqueKeys.step {s t : Server} {a : Action} (hs : s.UniqueKeys)
    (hfresh : s.AppendsFresh a) (h : s.step a = some t) : t.UniqueKeys := by
  unfold UniqueKeys pendingKeys at *
  cases PendingRule.of_step h with
  | keep hjobs => rwa [hjobs]
  | append req cmd src now hpc ha hjobs =>
    rw [hjobs]
    have hkey : s.appendedKey a = some (req.clientId, req.jobId) := by
      simp [appendedKey, ha, hpc]
    exact nodup_keys_append.mpr ⟨hfresh _ hkey, hs⟩
  | count w job remaining total now hpc ha hjobs =>
    rwa [hjobs, map_key_countFile]
  | remove i ha hjobs =>
    rw [hjobs]
    exact hs.sublist ((List.eraseIdx_sublist _ _).map _)

/-- A step after which the keys are distinct did not append a job with a key in the table. -/
lemma Server.UniqueKeys.appendsFresh {s t : Server} {a : Action} (ht : t.UniqueKeys)
    (h : s.step a = some t) : s.AppendsFresh a := by
  intro key hkey
  unfold appendedKey at hkey
  split at hkey
  · rename_i req cmd src now hpc
    cases hkey
    simp only [Server.step, Server.clientStep, hpc] at h
    split_ifs at h
    cases h
    exact (nodup_keys_append.mp ht).1
  · cases hkey

/-- A run with distinct keys in all its states appends only jobs whose keys are not in the table. -/
lemma along_appendsFresh {s t : Server} {as : List Action} (h : run Server.step s as = some t)
    (huniq : Always Server.step Server.UniqueKeys s as) :
    Along Server.step Server.AppendsFresh s as := by
  intro pre a u hpre hrun
  obtain ⟨v, hv⟩ := run_prefix hpre h
  obtain ⟨u', hu', hstep⟩ := run_concat_eq_some.mp hv
  obtain rfl : u = u' := Option.some.inj (hrun.symm.trans hu')
  exact (huniq _ v hpre hv).appendsFresh hstep

/-- The keys stay distinct in a run that appends only such jobs. -/
lemma always_uniqueKeys {dir : Bytes} {as : List Action}
    (hfresh : Along Server.step Server.AppendsFresh (.init dir) as) :
    Always Server.step Server.UniqueKeys (.init dir) as :=
  always_of_along (fun _ _ _ hs hC h => hs.step hC h) (fun _ hs => hs) List.nodup_nil hfresh

/-- The keys stay distinct along exactly the runs in which no job is appended while one with its
key is pending. -/
theorem uniqueKeys_iff {dir : Bytes} {as : List Action} {s : Server}
    (h : run Server.step (.init dir) as = some s) :
    Always Server.step Server.UniqueKeys (.init dir) as ↔
      Along Server.step Server.AppendsFresh (.init dir) as := by
  constructor
  · exact along_appendsFresh h
  · exact always_uniqueKeys

/-- A job request of client `n` and what the handling of it does when its directory can be made. -/
def jobRequestRun (n : UInt8) (dirExists : Bool) : List Action :=
  let req : JobRequest := ⟨1, Vector.replicate 16 n, 7, 1, 4⟩
  .client (.receive (fillBuffer (req.datagram 0 (cstr "true")) 0) 36 ⟨1, 1⟩ 0 (Vector.replicate 16 0))
    :: (if dirExists then [.client (.stat (some ⟨true, 0⟩))]
      else [.client (.stat none), .client (.mkdir true)])
    ++ [.client (.append true 0), .client (.reply true)]

/-- The one of client 1. -/
def jobRun (dirExists : Bool) : List Action := jobRequestRun 1 dirExists

/-- Two clients use the same job id. -/
theorem uniqueKeys_jobRun :
    ∃ s, run Server.step (.init []) (jobRun false ++ jobRequestRun 2 false) = some s ∧
      s.pendingKeys = [(Vector.replicate 16 1, 7), (Vector.replicate 16 2, 7)] ∧
      Always Server.step Server.UniqueKeys (.init []) (jobRun false ++ jobRequestRun 2 false) := by
  obtain ⟨s, hs, hkeys⟩ := Option.map_eq_some_iff.mp
    (show (run Server.step (.init []) (jobRun false ++ jobRequestRun 2 false)).map
      Server.pendingKeys = some [(Vector.replicate 16 1, 7), (Vector.replicate 16 2, 7)] by
        decide +kernel)
  exact ⟨s, hs, hkeys, (uniqueKeys_iff hs).mpr (by decide +kernel)⟩

/-- A job request that arrives twice is in the table twice. -/
theorem not_uniqueKeys_retransmitted :
    ¬ ∀ dir as s, run Server.step (.init dir) as = some s → s.UniqueKeys := by
  intro h
  obtain ⟨s, hs, hkeys⟩ := Option.map_eq_some_iff.mp
    (show (run Server.step (.init []) (jobRun false ++ jobRun true)).map Server.pendingKeys
      = some [(Vector.replicate 16 1, 7), (Vector.replicate 16 1, 7)] by decide +kernel)
  have huniq := h [] _ s hs
  rw [Server.UniqueKeys, hkeys] at huniq
  simp at huniq

end Pcd
