import PcdProject.Server.JobTable

/-!
# Where jobs come from

A job in the table was asked for by a JOB_REQ that was received before: what holds of the key and
the command of all requests holds of all jobs.
-/

namespace Pcd

open Transition

/-- The request that `create_job` is called with, and its command. -/
def ClientThread.jobRequest : ClientThread → Option (JobRequest × Bytes)
  | .jobStat req cmd _ | .jobMkdir req cmd _ | .jobAppend req cmd _ => some (req, cmd)
  | _ => none

/-- The key and the command of the job. -/
def PendingJob.order (job : PendingJob) : JobKey × Bytes := (job.key, job.command)

/-- The key and the command of the job that a request asks for. -/
def JobRequest.order (req : JobRequest) (cmd : Bytes) : JobKey × Bytes :=
  ((req.clientId, req.jobId), bounded MAX_CMD_LEN cmd)

variable {P : JobKey × Bytes → Prop}

/-- If the step receives a JOB_REQ, `P` holds of what it asks for. -/
def Action.Orders (P : JobKey × Bytes → Prop) : Action → Prop
  | .client (.receive buffer n _ _ _) =>
    ∀ req cmd, readRequest buffer n = some (.job req cmd) → P (req.order cmd)
  | _ => True

/-- `P` holds of all jobs, and of the one that is being created. -/
structure AllOrders (P : JobKey × Bytes → Prop) (s : Server) : Prop where
  pending  : ∀ order ∈ s.pendingJobs.map PendingJob.order, P order
  creating : ∀ q ∈ s.clientThread.jobRequest, P (q.1.order q.2)

namespace AllOrders

variable {s t : Server} {a : Action} {dir : Bytes}

lemma init (dir : Bytes) : AllOrders P (Server.init dir) where
  pending := by simp [Server.init]
  creating := by simp [Server.init, ClientThread.jobRequest]

lemma pending_step (hs : AllOrders P s) (h : s.step a = some t) :
    ∀ order ∈ t.pendingJobs.map PendingJob.order, P order := by
  cases PendingRule.of_step h with
  | keep hjobs =>
    rw [hjobs]
    exact hs.pending
  | append req cmd src now hpc ha hjobs =>
    rw [hjobs, List.map_append]
    refine List.forall_mem_append.mpr ⟨hs.pending, List.forall_mem_singleton.mpr ?_⟩
    exact hs.creating (req, cmd) (by rw [hpc]; rfl)
  | count w job remaining total now hpc ha hjobs =>
    rw [hjobs, map_countFile _ fun _ _ _ => rfl]
    exact hs.pending
  | remove i ha hjobs =>
    rw [hjobs]
    intro order horder
    exact hs.pending order (((List.eraseIdx_sublist _ _).map _).subset horder)

/-- A request enters `client_thread` when it is received. -/
lemma creating_client {a : ClientAction} (hs : AllOrders P s) (ha : (Action.client a).Orders P)
    (h : s.clientStep a = some t) : ∀ q ∈ t.clientThread.jobRequest, P (q.1.order q.2) := by
  cases ClientBranch.of_clientStep h with
  | receive buffer n src now newId hpc hsize =>
    cases hread : readRequest buffer n with
    | none => exact hs.creating
    | some req =>
      cases req with
      | clientId | heartbeat => exact hs.creating
      | job req cmd =>
        rintro _ ⟨⟩
        exact ha req cmd hread
      | upload | download => rintro _ ⟨⟩
  | isDirectory _ _ _ _ hpc _ | missing _ _ _ hpc | mkdir _ _ _ hpc =>
    rintro _ ⟨⟩
    exact hs.creating _ (by rw [hpc]; rfl)
  | notDirectory | mkdirFail | append | appendFail | jobReply | jobReplyFail | enqueueUpload
  | uploadReply | downloadStat | downloadMissing | downloadChmod | downloadReply
  | enqueueDownload =>
    rintro _ ⟨⟩

lemma step (hs : AllOrders P s) (ha : a.Orders P) (h : s.step a = some t) : AllOrders P t := by
  refine ⟨hs.pending_step h, ?_⟩
  cases SystemRule.of_step h with
  | client a _ _ => exact hs.creating_client ha h
  | worker w a _ h => cases h <;> exact hs.creating
  | processing a _ h => cases h <;> exact hs.creating
  | download a _ h => cases h <;> exact hs.creating
  | sweep | kick | limit | limitIgnored | connectUpload | connectDownload => exact hs.creating

/-- What holds of all requests holds of all jobs. -/
lemma of_run {as : List Action} (has : ∀ a ∈ as, a.Orders P)
    (h : run Server.step (.init dir) as = some s) : AllOrders P s := by
  have hC : Along Server.step (fun _ a => a.Orders P) (.init dir) as := by
    intro pre a u hpre _
    exact has a (hpre.subset (List.mem_append_right _ (List.mem_singleton_self a)))
  exact along_invariant (I := AllOrders P) (fun _ _ _ hs ha h => hs.step ha h) (init dir) hC h

end AllOrders

end Pcd
