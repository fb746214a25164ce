import PcdProject.Server.System

/-!
# The traffic of the server

How much a datagram can make the server send. It is answered at most once. Besides, the entry that
it makes or takes over in the table of the clients may be kicked, with a notice, and the job that it
creates is answered when its command was run. All of this goes to the address that the datagram came
from.
-/

namespace Pcd

open Transition

/-- Where the datagram comes from that the server receives in a step. -/
def Action.source : Action → Option SockAddr
  | .client (.receive _ _ src _ _) => some src
  | _                              => none

/-! ### What is owed to an address -/

/-- What may follow from the request that is handled. -/
def ClientThread.owes (addr : SockAddr) : ClientThread → ℕ
  | .receiving | .downloadEnqueue _ _ _ => 0
  | .jobStat _ _ src | .jobMkdir _ _ src | .jobAppend _ _ src => if src = addr then 2 else 0
  | .jobReply _ src _ | .uploadEnqueue _ _ src | .uploadReply _ _ src | .downloadStat _ _ src
  | .downloadChmod _ _ src _ | .downloadReply _ _ src _ => if src = addr then 1 else 0

namespace Server

/-- The pending jobs but for the one that is answered and about to be removed. -/
def unanswered (s : Server) : List PendingJob :=
  match s.processing with
  | .removing _ i => s.pendingJobs.eraseIdx i
  | _             => s.pendingJobs

/-- The datagrams that were sent to the address, and those that may follow without another one from
there. -/
def balance (addr : SockAddr) (s : Server) : ℕ :=
  s.outbox.countP (fun p => p.1 = addr) + s.clientThread.owes addr
    + s.unanswered.countP (fun job => job.clientAddr = addr)
    + s.clients.countP (fun c => c.addr = addr)

lemma unanswered_of_free {s : Server} (h : s.processing.holdsJobsMutex = false) :
    s.unanswered = s.pendingJobs := by
  unfold unanswered
  split
  · rename_i hpc
    rw [hpc] at h
    cases h
  · rfl

end Server

/-! ### The tables -/

section Tables

variable (addr : SockAddr) (clients : List ClientInfo)

lemma countP_updateHeartbeat (id : ClientId) (src : SockAddr) (now : ℤ) :
    (updateHeartbeat clients id src now).countP (fun c => c.addr = addr)
      ≤ clients.countP (fun c => c.addr = addr) + if src = addr then 1 else 0 := by
  induction clients with
  | nil => exact Nat.zero_le _
  | cons c clients ih =>
    rw [updateHeartbeat_cons]
    by_cases hid : c.clientId = id
    · rw [if_pos hid, List.countP_cons, List.countP_cons]
      simp only [decide_eq_true_eq]
      omega
    · rw [if_neg hid, List.countP_cons, List.countP_cons]
      omega

/-- The entry that is kicked makes place for its notice. -/
lemma countP_kickClientById (id : ClientId) :
    (kickNotice id clients).countP (fun p => p.1 = addr)
        + (kickClientById id clients).countP (fun c => c.addr = addr)
      = clients.countP (fun c => c.addr = addr) := by
  unfold kickNotice kickClientById
  induction clients with
  | nil => rfl
  | cons c clients ih =>
    rw [List.find?_cons, List.eraseP_cons]
    by_cases hid : c.clientId = id
    · simp [hid, List.countP_cons, add_comm]
    · simp only [hid, decide_false, cond_false, List.countP_cons, ← ih]
      omega

/-- The address of a job stays. -/
lemma countP_countFile (key : JobKey) (now : ℤ) (jobs : List PendingJob) :
    (countFile key now jobs).countP (fun job => job.clientAddr = addr)
      = jobs.countP (fun job => job.clientAddr = addr) := by
  have hmap := congrArg (List.countP fun src => src = addr)
    (map_countFile PendingJob.clientAddr (fun _ _ _ => rfl) key now jobs)
  rw [List.countP_map, List.countP_map] at hmap
  exact hmap

end Tables

/-! ### Steps -/

namespace Server

variable {s t : Server} (addr : SockAddr)

/-- A datagram adds two at most, and only for the address that it came from. -/
lemma balance_dispatch (src : SockAddr) (now : ℤ) (newId : ClientId) (req : Option Request) :
    (s.dispatch src now newId req).balance addr
      ≤ s.balance addr + if src = addr then 2 else 0 := by
  cases req with
  | none => exact Nat.le_add_right _ _
  | some req =>
    cases req with
    | clientId messageId =>
      simp only [dispatch, send, balance, unanswered, registerClient, List.countP_append,
        List.countP_singleton, decide_eq_true_eq]
      split_ifs <;> omega
    | heartbeat id =>
      have hle := countP_updateHeartbeat addr s.clients id src now
      simp only [dispatch, balance, unanswered]
      split_ifs at hle ⊢ <;> omega
    | job | upload | download =>
      simp only [dispatch, balance, unanswered, ClientThread.owes]
      split_ifs <;> omega

lemma balance_clientStep {a : ClientAction} (h : s.clientStep a = some t) :
    t.balance addr ≤ s.balance addr + if (Action.client a).source = some addr then 2 else 0 := by
  cases ClientBranch.of_clientStep h with
  | receive buffer n src now newId =>
    simpa only [Action.source, Option.some.injEq] using balance_dispatch addr src now newId _
  | append req cmd src now hpc hfree =>
    -- the job that is appended takes over one of the two
    have hsame : unanswered { s with
        pendingJobs := s.pendingJobs ++ [.create req cmd src now]
        clientThread := .jobReply req src true } = s.pendingJobs ++ [.create req cmd src now] :=
      unanswered_of_free hfree
    have haddr : (PendingJob.create req cmd src now).clientAddr = src := rfl
    simp only [balance, hsame, unanswered_of_free hfree, hpc, ClientThread.owes,
      List.countP_append, List.countP_singleton, haddr, decide_eq_true_eq]
    split_ifs <;> omega
  | jobReply req src success hpc | uploadReply ok req name src hpc
  | downloadMissing req name src hpc | downloadReply ok req name src size hpc =>
    simp only [balance, send, unanswered, hpc, ClientThread.owes, List.countP_append,
      List.countP_singleton, decide_eq_true_eq]
    split_ifs <;> omega
  | isDirectory _ _ _ _ hpc | notDirectory _ _ _ _ hpc | missing _ _ _ hpc | mkdir _ _ _ hpc
  | mkdirFail _ _ _ hpc | appendFail _ _ _ _ hpc | jobReplyFail _ _ _ hpc
  | enqueueUpload _ _ _ _ hpc | downloadStat _ _ _ _ hpc | downloadChmod _ _ _ _ _ hpc
  | enqueueDownload _ _ _ _ hpc =>
    simp only [balance, unanswered, hpc, ClientThread.owes]
    split_ifs <;> omega

lemma balance_processingStep {a : ProcessingAction} (h : s.processingStep a = some t) :
    t.balance addr ≤ s.balance addr := by
  cases ProcessingRule.of_processingStep h with
  | sendto dir i status job hpc hjob =>
    obtain ⟨hlt, rfl⟩ := List.getElem?_eq_some_iff.mp hjob
    have hperm := (List.getElem_cons_eraseIdx_perm hlt).countP_eq
      (fun job => decide (job.clientAddr = addr))
    rw [List.countP_cons] at hperm
    simp only [balance, unanswered, hpc, List.countP_append, List.countP_singleton]
    omega
  | remove dir i hpc =>
    simp only [balance, unanswered, hpc]
    omega
  | getcwd hpc | getcwdFail _ hpc | lock _ hpc | unlock _ _ hpc | ready _ _ _ hpc | notReady _ _ hpc
  | chdir _ _ _ hpc | chdirFail _ _ hpc | system _ _ _ _ hpc | malloc _ _ _ hpc
  | mallocFail _ _ _ hpc | chdirBack _ _ _ hpc =>
    simp only [balance, unanswered, hpc]
    omega

/-- What a step sends was owed, or the step receives a datagram. -/
lemma balance_step {a : Action} (h : s.step a = some t) :
    t.balance addr ≤ s.balance addr + if a.source = some addr then 2 else 0 := by
  cases SystemRule.of_step h with
  | client a _ _ => exact balance_clientStep addr h
  | worker w a _ h =>
    refine Nat.le_add_right_of_le ?_
    cases h with
    | update job remaining total now hpc hfree =>
      have hcount : unanswered (setWorker { s with
          pendingJobs := countFile job.key now s.pendingJobs } w (.finished job))
            = countFile job.key now s.pendingJobs := unanswered_of_free hfree
      simp only [balance, hcount, unanswered_of_free hfree, countP_countFile]
      exact le_rfl
    | _ => exact le_rfl
  | processing a _ _ => exact Nat.le_add_right_of_le (balance_processingStep addr h)
  | download a _ h => cases h <;> exact Nat.le_add_right_of_le le_rfl
  | sweep now =>
    refine Nat.le_add_right_of_le (Nat.add_le_add_left ?_ _)
    exact List.Sublist.countP_le List.filter_sublist
  | kick id =>
    have hkick := countP_kickClientById addr s.clients id
    simp only [balance, unanswered, List.countP_append]
    omega
  | limit | limitIgnored | connectUpload | connectDownload => exact Nat.le_add_right_of_le le_rfl

end Server

/-- In every run of the server at most two datagrams are sent to an address for each one that came
from there; nothing is sent to an address that has sent nothing. -/
theorem sent_le_received {dir : Bytes} {as : List Action} {s : Server} (addr : SockAddr)
    (h : run Server.step (.init dir) as = some s) :
    s.outbox.countP (fun p => p.1 = addr) ≤ 2 * as.countP fun a => a.source = some addr := by
  have hbalance := run_potential (Φ := Server.balance addr) (k := 2)
    (p := fun a => a.source = some addr) ?_ h
  · have hinit : (Server.init dir).balance addr = 0 := rfl
    rw [hinit, Nat.zero_add] at hbalance
    exact le_trans (by unfold Server.balance; omega) hbalance
  · intro s a t hstep
    simpa using Server.balance_step addr hstep

/-- A client registers and is kicked. -/
def registerKick : List Action :=
  [.client (.receive (fillBuffer (1 :: List.replicate 7 0) 0) 8 ⟨1, 1⟩ 0 (Vector.replicate 16 1)),
    .kick (Vector.replicate 16 1)]

theorem sent_le_received_registerKick :
    ∃ s, run Server.step (.init []) registerKick = some s ∧
      s.outbox.countP (fun p => p.1 = ⟨1, 1⟩) = 2 ∧
      s.outbox.countP (fun p => p.1 = ⟨1, 1⟩)
        ≤ 2 * registerKick.countP fun a => a.source = some ⟨1, 1⟩ := by
  obtain ⟨s, hs, htwo⟩ := Option.map_eq_some_iff.mp
    (show (run Server.step (.init []) registerKick).map
      (fun s => s.outbox.countP fun p => p.1 = ⟨1, 1⟩) = some 2 by decide +kernel)
  exact ⟨s, hs, htwo, sent_le_received ⟨1, 1⟩ hs⟩

end Pcd
