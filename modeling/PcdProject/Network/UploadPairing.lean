import PcdProject.Core.QueuePairing
import PcdProject.Network.World

/-!
# Connections and upload jobs

A worker accepts whatever connection comes first and stores what it receives under the file of its
job. The bytes belong to the job if the clients connect in the order in which the workers take their
jobs to `accept`, and nothing disturbs this order while connections wait.
-/

namespace Pcd

open Transition QueuePairing

/-- The upload request of the label became this job. -/
def UploadLabel.Names (label : UploadLabel) (job : UploadJob) : Prop :=
  job.clientId = label.clientId ∧ job.jobId = label.jobId ∧
    job.filename = bounded MAX_FILENAME_LEN label.filename

instance (label : UploadLabel) (job : UploadJob) : Decidable (label.Names job) :=
  inferInstanceAs (Decidable (_ ∧ _))

/-- The job and the connection of a worker that has accepted. -/
def Worker.transfer : Worker → Option (UploadJob × Connection)
  | .opening job conn | .receiving job conn _ _ => some (job, conn)
  | _ => none

/-! ### The order of the jobs -/

/-- The job of a worker that has picked it and not yet accepted. -/
def Worker.awaiting : Worker → Option UploadJob
  | .picked job | .accepting job => some job
  | _ => none

namespace Server

/-- The jobs that were picked and wait for a connection. -/
def awaiting (s : Server) : List UploadJob := s.workers.filterMap Worker.awaiting

/-- The jobs that will take a connection, in the order in which they will do so if at most one
worker waits at a time. -/
def turns (s : Server) : List UploadJob := s.awaiting ++ s.uploadQueue

/-- The priority of the job that `client_thread` is about to insert. -/
def newPriority (s : Server) : Option Priority :=
  match s.clientThread with
  | .uploadEnqueue req _ _ => some (uploadPriority req.fileSize)
  | _                      => none

/-- While connections wait, one worker at a time picks a job and finds it among the pending ones,
no `accept` fails, and no new job is inserted in front of one whose client has connected. -/
def KeepsTurns (s : Server) : Action → Prop
  | .worker _ .pick           => s.uploadBacklog = [] ∨ s.awaiting = []
  | .worker i .lookup         => s.uploadBacklog = [] ∨
    ∀ job ∈ (s.workers[i]?).bind Worker.awaiting, ∃ p ∈ s.pendingJobs, p.key = job.key
  | .worker _ (.accept false) => s.uploadBacklog = []
  | .client (.enqueue _)      =>
    ∀ job ∈ s.uploadQueue.take (s.uploadBacklog.length - s.awaiting.length),
      ∀ p ∈ s.newPriority, p ≤ job.priority
  | _ => True

instance (s : Server) (a : Action) : Decidable (s.KeepsTurns a) :=
  match a with
  | .worker _ .pick           => inferInstanceAs (Decidable (_ ∨ _))
  | .worker _ .lookup         => inferInstanceAs (Decidable (_ ∨ ∀ _ ∈ _, _))
  | .worker _ (.accept false) => inferInstanceAs (Decidable (_ = _))
  | .client (.enqueue _)      =>
    inferInstanceAs (Decidable (∀ job ∈ s.uploadQueue.take _, ∀ p ∈ s.newPriority, _))
  | .worker _ (.accept true) | .worker _ (.openFile _) | .worker _ (.recv _ _)
  | .worker _ .hangup | .worker _ .close | .worker _ (.update _) | .worker _ .finish
  | .client (.receive ..) | .client (.stat _) | .client (.mkdir _) | .client (.append ..)
  | .client (.reply _) | .client (.chmod _) | .processing _ | .download _ | .sweep _
  | .setMaxUploads _ | .kick _ | .connectUpload _ | .connectDownload _ => .isTrue trivial

end Server

namespace World

/-- The connection was opened for the upload request of the job. -/
def OpenedFor (w : World) (p : UploadJob × Connection) : Prop :=
  ∃ label ∈ w.uploadConns[p.2.id]?, label.Names p.1

instance (w : World) (p : UploadJob × Connection) : Decidable (w.OpenedFor p) :=
  inferInstanceAs (Decidable (∃ label ∈ w.uploadConns[p.2.id]?, label.Names p.1))

/-- The job of a worker in front of its `accept`, with the connection that the step accepts. -/
def acceptance (w : World) (a : WorldAction) : Option (UploadJob × Connection) :=
  match a with
  | .server (.worker i (.accept true)) =>
    match w.server.workers[i]?, w.server.uploadBacklog with
    | some (.accepting job), conn :: _ => some (job, conn)
    | _, _ => none
  | _ => none

/-- The job under whose file the step stores bytes, with the connection from which they come. -/
def storing (w : World) (a : WorldAction) : Option (UploadJob × Connection) :=
  match a with
  | .server (.worker i (.recv _ written)) =>
    match w.server.workers[i]? with
    | some (.receiving job conn _ _) => if 0 < written then some (job, conn) else none
    | _ => none
  | _ => none

/-- If a worker accepts, the first connection of the listening socket was opened for its job. -/
def AcceptsOwn (w : World) (a : WorldAction) : Prop := ∀ p ∈ w.acceptance a, w.OpenedFor p

/-- If bytes are stored, they come from a connection that was opened for the job. -/
def StoresOwn (w : World) (a : WorldAction) : Prop := ∀ p ∈ w.storing a, w.OpenedFor p

instance (w : World) (a : WorldAction) : Decidable (w.StoresOwn a) :=
  inferInstanceAs (Decidable (∀ p ∈ w.storing a, w.OpenedFor p))

/-- The request for whose upload a client connects in the step. -/
def connecting (w : World) (a : WorldAction) : Option UploadLabel :=
  match a with
  | .uploadConnect i _ =>
    (w.uploads[i]?).map fun call => ⟨call.req.clientId, call.req.jobId, call.filename⟩
  | _ => none

/-- A client connects when it is the turn of its job, the jobs for which connections wait left out
of account, and while at most one worker waits for a connection. -/
def InTurn (w : World) (a : WorldAction) : Prop :=
  (∀ label ∈ w.connecting a, w.server.awaiting.length ≤ 1 ∧
    ∃ job ∈ w.server.turns[w.server.uploadBacklog.length]?, label.Names job) ∧
  ∀ b ∈ w.serverAction a, w.server.KeepsTurns b

instance (w : World) (a : WorldAction) : Decidable (w.InTurn a) :=
  inferInstanceAs (Decidable ((∀ label ∈ w.connecting a, _ ∧ ∃ job ∈ _, _) ∧
    ∀ b ∈ w.serverAction a, _))

end World

/-- A worker keeps the connection that it accepted. -/
lemma Worker.transfer_step {s t : Server} {b : Action} (h : s.step b = some t) :
    ∀ pc ∈ t.workers, ∀ p ∈ pc.transfer, (∃ pc₀ ∈ s.workers, p ∈ pc₀.transfer) ∨
      ∃ i backlog, b = .worker i (.accept true) ∧ s.workers[i]? = some (.accepting p.1) ∧
        s.uploadBacklog = p.2 :: backlog := by
  cases SystemRule.of_step h with
  | worker i a _ h =>
    have set : ∀ pc', (∀ p ∈ pc'.transfer, ∃ pc₀ ∈ s.workers, p ∈ pc₀.transfer) →
        ∀ pc ∈ s.workers.set i pc', ∀ p ∈ pc.transfer, ∃ pc₀ ∈ s.workers, p ∈ pc₀.transfer := by
      intro pc' hpc' pc hpc p hp
      rcases List.mem_or_eq_of_mem_set hpc with hpc | rfl
      · exact ⟨pc, hpc, hp⟩
      · exact hpc' p hp
    cases h with
    | accept job conn backlog hpc hconn =>
      intro pc hpc' p hp
      rcases List.mem_or_eq_of_mem_set hpc' with hpc' | rfl
      · exact .inl ⟨pc, hpc', hp⟩
      · cases hp
        exact .inr ⟨i, backlog, rfl, hpc, hconn⟩
    | openFile job conn hpc =>
      have old := List.mem_of_getElem? hpc
      intro pc hpc' p hp
      left
      refine set (.receiving job conn job.fileSize.toNat 0) ?_ pc hpc' p hp
      intro p hp
      exact ⟨_, old, hp⟩
    | recv job conn remaining total received hpc =>
      have old := List.mem_of_getElem? hpc
      intro pc hpc' p hp
      left
      refine set (.receiving job conn (remaining - received) (total + received)) ?_ pc hpc' p hp
      intro p hp
      exact ⟨_, old, hp⟩
    | lookup job pc' hpc hfree hpc' =>
      have hidle : ∀ p ∈ pc'.transfer, ∃ pc₀ ∈ s.workers, p ∈ pc₀.transfer := by
        rcases hpc' with rfl | rfl <;> simp [transfer]
      intro pc hpc' p hp
      exact .inl (set pc' hidle pc hpc' p hp)
    | pick | acceptFail | openFail | shortWrite | hangup | close | update | finish =>
      intro pc hpc' p hp
      exact .inl (set _ (by simp [transfer]) pc hpc' p hp)
  | client a _ h =>
    cases h <;>
    · intro pc hpc p hp
      exact .inl ⟨pc, hpc, hp⟩
  | processing a _ h =>
    cases h <;>
    · intro pc hpc p hp
      exact .inl ⟨pc, hpc, hp⟩
  | download a _ h =>
    cases h <;>
    · intro pc hpc p hp
      exact .inl ⟨pc, hpc, hp⟩
  | sweep | kick | limit | limitIgnored | connectUpload | connectDownload =>
    intro pc hpc p hp
    exact .inl ⟨pc, hpc, hp⟩

namespace World

variable {w t : World} {a : WorldAction}

/-- A connection stays opened for what it was opened for. -/
lemma OpenedFor.step {p : UploadJob × Connection} (hp : w.OpenedFor p) (h : w.step a = some t) :
    t.OpenedFor p := by
  obtain ⟨label, hlabel, hnames⟩ := hp
  obtain ⟨⟨tail, htail⟩, -⟩ := step_conns h
  refine ⟨label, ?_, hnames⟩
  obtain ⟨hlt, -⟩ := List.getElem?_eq_some_iff.mp hlabel
  rw [← htail, List.getElem?_append_left hlt]
  exact hlabel

/-- Only the server's own step makes a worker accept. -/
lemma serverAction_accept {i : ℕ} (h : w.serverAction a = some (.worker i (.accept true))) :
    a = .server (.worker i (.accept true)) := by
  cases a <;> simp_all [serverAction]

/-- Every accepted connection was opened for the job of its worker. -/
def Paired (w : World) : Prop := ∀ pc ∈ w.server.workers, ∀ p ∈ pc.transfer, w.OpenedFor p

lemma Paired.step (hw : w.Paired) (hC : w.AcceptsOwn a) (h : w.step a = some t) : t.Paired := by
  intro pc hpc p hp
  rcases step_cases h with ⟨-, hframe⟩ | ⟨b, w', hb, -, hframe, ht⟩
  · rw [hframe.server] at hpc
    exact (hw pc hpc p hp).step h
  · have hstep := serverStep_server ht
    rw [hframe.server] at hstep
    rcases Worker.transfer_step hstep pc hpc p hp with
      ⟨pc₀, hpc₀, hp₀⟩ | ⟨i, backlog, rfl, hacc, hconn⟩
    · exact (hw pc₀ hpc₀ p hp₀).step h
    · refine OpenedFor.step (hC p ?_) h
      rw [serverAction_accept hb, acceptance, hacc, hconn]
      rfl

end World

/-- If each `accept` of a worker returns a connection that was opened for the job of the worker,
all bytes are stored under the file of the request for which their connection was opened. -/
lemma along_storesOwn_of_acceptsOwn {dir : Bytes} {as : List WorldAction}
    (hC : Along World.step World.AcceptsOwn (.init dir) as) :
    Along World.step World.StoresOwn (.init dir) as := by
  intro pre a t hpre hrun p hp
  have hpaired : t.Paired := by
    refine along_invariant (fun _ _ _ hw hC h => World.Paired.step hw hC h) ?_
      (hC.of_prefix ((List.prefix_append _ _).trans hpre)) hrun
    intro pc hpc
    rw [List.eq_of_mem_replicate hpc]
    simp [Worker.transfer]
  unfold World.storing at hp
  split at hp
  · split at hp
    · rename_i hpc
      split_ifs at hp
      · exact hpaired _ (List.mem_of_getElem? hpc) p hp
      · cases hp
    · cases hp
  · cases hp

/-! ### Connections in turn -/

/-- What changing one element does to the values of a list. -/
lemma filterMap_set {α β : Type*} (f : α → Option β) {l : List α} {i : ℕ} {x : α}
    (h : l[i]? = some x) : ∃ before behind, l.filterMap f = before ++ (f x).toList ++ behind ∧
      ∀ y, (l.set i y).filterMap f = before ++ (f y).toList ++ behind := by
  obtain ⟨hlt, hx⟩ := List.getElem?_eq_some_iff.mp h
  have hcons : ∀ (z : α) (rest : List α),
      (z :: rest).filterMap f = (f z).toList ++ rest.filterMap f := by
    intro z rest
    cases hz : f z <;> simp [hz]
  refine ⟨(l.take i).filterMap f, (l.drop (i + 1)).filterMap f, ?_, ?_⟩
  · conv_lhs => rw [← List.take_append_drop i l, List.drop_eq_getElem_cons hlt, hx]
    rw [List.filterMap_append, hcons, List.append_assoc]
  · intro y
    rw [List.set_eq_take_append_cons_drop, if_pos hlt, List.filterMap_append, hcons,
      List.append_assoc]

namespace Server

variable {s t : Server} {i : ℕ} {pc : Worker}

lemma awaiting_setWorker (hpc : s.workers[i]? = some pc) :
    ∃ before behind, s.awaiting = before ++ pc.awaiting.toList ++ behind ∧
      ∀ (s' : Server) pc', s'.workers = s.workers →
        (s'.setWorker i pc').awaiting = before ++ pc'.awaiting.toList ++ behind := by
  obtain ⟨before, behind, hbefore, hset⟩ := filterMap_set Worker.awaiting hpc
  refine ⟨before, behind, hbefore, fun s' pc' hs' => ?_⟩
  rw [awaiting, setWorker, hs']
  exact hset pc'

/-- A step of a worker that neither picks a job nor accepts for it. -/
lemma awaiting_setWorker_eq (hpc : s.workers[i]? = some pc) (s' : Server) {pc' : Worker}
    (hs' : s'.workers = s.workers) (hawaiting : pc'.awaiting = pc.awaiting) :
    (s'.setWorker i pc').awaiting = s.awaiting := by
  obtain ⟨before, behind, hbefore, hset⟩ := awaiting_setWorker hpc
  rw [hset s' pc' hs', hbefore, hawaiting]

/-- The worker that waits alone is the first in turn. -/
lemma awaiting_eq_singleton {job : UploadJob} (hpc : s.workers[i]? = some pc)
    (hjob : pc.awaiting = some job) (halone : s.awaiting.length ≤ 1) :
    s.awaiting = [job] ∧ ∀ (s' : Server) pc', s'.workers = s.workers →
      (s'.setWorker i pc').awaiting = pc'.awaiting.toList := by
  obtain ⟨before, behind, hbefore, hset⟩ := awaiting_setWorker hpc
  rw [hbefore, hjob, List.length_append, List.length_append, Option.toList_some,
    List.length_singleton] at halone
  obtain rfl : before = [] := List.length_eq_zero_iff.mp (by omega)
  obtain rfl : behind = [] := List.length_eq_zero_iff.mp (by omega)
  rw [hbefore, hjob]
  refine ⟨rfl, fun s' pc' hs' => ?_⟩
  rw [hset s' pc' hs', List.nil_append, List.append_nil]

/-- A worker whose job is found goes on to `accept`. -/
lemma lookup_found {job : UploadJob} (hpc : s.workers[i]? = some (.picked job))
    (hfound : ∃ p ∈ s.pendingJobs, p.key = job.key) (h : s.workerStep i .lookup = some t) :
    t = s.setWorker i (.accepting job) := by
  have hany : (s.pendingJobs.any fun p => p.key = job.key) = true := by simpa using hfound
  simp only [workerStep, hpc, hany, if_true] at h
  split_ifs at h
  exact (Option.some.inj h).symm

/-- What a step does to the connections and to the jobs whose turn is next. -/
inductive BacklogRule (s : Server) : Action → Server → Prop where
  | empty (a : Action) (t : Server) (hnil : t.uploadBacklog = []) : BacklogRule s a t
  | keep (a : Action) (t : Server) (hbacklog : t.uploadBacklog = s.uploadBacklog)
      (halone : t.awaiting.length ≤ 1)
      (hturns : s.turns.take s.uploadBacklog.length <+: t.turns) : BacklogRule s a t
  | accept (a : Action) (t : Server) (job : UploadJob) (conn : Connection)
      (hbacklog : s.uploadBacklog = conn :: t.uploadBacklog) (hturns : s.turns = job :: t.turns)
      (hawaiting : t.awaiting = []) : BacklogRule s a t
  | connect (conn : Connection) :
      BacklogRule s (.connectUpload conn) { s with uploadBacklog := s.uploadBacklog ++ [conn] }

namespace BacklogRule

/-- The jobs stay in their order. -/
lemma same (a : Action) (halone : s.uploadBacklog ≠ [] → s.awaiting.length ≤ 1)
    (hbacklog : t.uploadBacklog = s.uploadBacklog) (hawaiting : t.awaiting = s.awaiting)
    (hqueue : t.uploadQueue = s.uploadQueue) : BacklogRule s a t := by
  by_cases hnil : s.uploadBacklog = []
  · exact .empty a t (hbacklog.trans hnil)
  refine .keep a t hbacklog (hawaiting ▸ halone hnil) ?_
  rw [turns, turns, hawaiting, hqueue]
  exact List.take_prefix _ _

/-- A new job goes behind those whose clients have connected. -/
lemma enqueue (a : Action) (job : UploadJob) (halone : s.uploadBacklog ≠ [] → s.awaiting.length ≤ 1)
    (hlater : ∀ x ∈ s.uploadQueue.take (s.uploadBacklog.length - s.awaiting.length),
      job.priority ≤ x.priority)
    (hbacklog : t.uploadBacklog = s.uploadBacklog) (hworkers : t.workers = s.workers)
    (hqueue : t.uploadQueue = Pcd.enqueueUpload s.uploadQueue job) : BacklogRule s a t := by
  have hawaiting : t.awaiting = s.awaiting := by rw [awaiting, awaiting, hworkers]
  by_cases hnil : s.uploadBacklog = []
  · exact .empty a t (hbacklog.trans hnil)
  have hpos : 1 ≤ s.uploadBacklog.length := List.length_pos_iff.mpr hnil
  refine .keep a t hbacklog (hawaiting ▸ halone hnil) ?_
  rw [turns, turns, hawaiting, hqueue, List.take_append,
    List.take_of_length_le ((halone hnil).trans hpos)]
  exact (List.prefix_append_right_inj _).mpr (StableQueue.take_prefix_insert hlater)

lemma of_worker {a : WorkerAction} (halone : s.uploadBacklog ≠ [] → s.awaiting.length ≤ 1)
    (hC : s.KeepsTurns (.worker i a)) (h : s.workerStep i a = some t) :
    BacklogRule s (.worker i a) t := by
  cases WorkerRule.of_workerStep h with
  | pick job queue hpc hqueue hlt =>
    rcases hC with hnil | hnone
    · exact .empty _ _ hnil
    obtain ⟨before, behind, hbefore, hset⟩ := awaiting_setWorker hpc
    rw [hnone] at hbefore
    simp only [List.nil_eq, List.append_eq_nil_iff] at hbefore
    obtain ⟨⟨rfl, -⟩, rfl⟩ := hbefore
    have hpicked := hset { s with
      uploadQueue := queue
      activeUploads := s.activeUploads + 1 } (.picked job) rfl
    refine .keep _ _ rfl ?_ ?_
    · rw [hpicked]
      exact le_rfl
    · rw [turns, turns, hpicked, hnone, hqueue]
      exact List.take_prefix _ _
  | lookup job pc' hpc hfree hpc' =>
    rcases hC with hnil | hfound
    · exact .empty _ _ hnil
    rw [hpc] at hfound
    rw [lookup_found hpc (hfound job rfl) h]
    exact same _ halone rfl (awaiting_setWorker_eq hpc s rfl rfl) rfl
  | accept job conn backlog hpc hconn =>
    have halone := halone (by rw [hconn]; exact List.cons_ne_nil _ _)
    obtain ⟨hawaiting, hset⟩ := awaiting_eq_singleton hpc rfl halone
    have hnone := hset { s with uploadBacklog := backlog } (.opening job conn) rfl
    refine .accept _ _ job conn hconn ?_ hnone
    rw [turns, turns, hnone, hawaiting]
    rfl
  | acceptFail job hpc => exact .empty _ _ hC
  | openFile job conn hpc => exact same _ halone rfl (awaiting_setWorker_eq hpc s rfl rfl) rfl
  | openFail job conn hpc => exact same _ halone rfl (awaiting_setWorker_eq hpc s rfl rfl) rfl
  | recv job conn remaining total received hpc =>
    exact same _ halone rfl (awaiting_setWorker_eq hpc s rfl rfl) rfl
  | shortWrite job conn remaining total received written hpc =>
    exact same _ halone rfl (awaiting_setWorker_eq hpc s rfl rfl) rfl
  | hangup job conn remaining total hpc =>
    exact same _ halone rfl (awaiting_setWorker_eq hpc s rfl rfl) rfl
  | close job conn total hpc => exact same _ halone rfl (awaiting_setWorker_eq hpc s rfl rfl) rfl
  | update job remaining total now hpc =>
    exact same _ halone rfl (awaiting_setWorker_eq hpc _ rfl rfl) rfl
  | finish job hpc => exact same _ halone rfl (awaiting_setWorker_eq hpc _ rfl rfl) rfl

lemma of_step {a : Action} (halone : s.uploadBacklog ≠ [] → s.awaiting.length ≤ 1)
    (hC : s.KeepsTurns a) (h : s.step a = some t) : BacklogRule s a t := by
  cases SystemRule.of_step h with
  | worker i a => exact of_worker halone hC h
  | client a _ h =>
    cases h with
    | enqueueUpload req name src now hpc =>
      refine enqueue _ (.create req name now) halone ?_ rfl rfl rfl
      intro x hx
      refine hC x hx _ ?_
      rw [newPriority, hpc]
      rfl
    | move | clients | appendJob | enqueueDownload => exact same _ halone rfl rfl rfl
  | processing a _ h => cases h <;> exact same _ halone rfl rfl rfl
  | download a _ h => cases h <;> exact same _ halone rfl rfl rfl
  | sweep | kick | limit | limitIgnored | connectDownload => exact same _ halone rfl rfl rfl
  | connectUpload conn => exact .connect conn

end BacklogRule

end Server

namespace World

variable {w t : World} {a : WorldAction}

/-- At most one worker waits while there are connections, and these were opened for the jobs whose
turn is next. -/
structure Aligned (w : World) : Prop where
  alone   : w.server.uploadBacklog ≠ [] → w.server.awaiting.length ≤ 1
  matched : Matched (fun conn job => w.OpenedFor (job, conn)) w.server.uploadBacklog w.server.turns

namespace Aligned

lemma of_nil (h : w.server.uploadBacklog = []) : w.Aligned where
  alone := fun hne => absurd h hne
  matched := by
    rw [h]
    exact .nil

/-- The connections that wait stay opened for their jobs. -/
lemma matched_step (hw : w.Aligned) (h : w.step a = some t) :
    Matched (fun conn job => t.OpenedFor (job, conn)) w.server.uploadBacklog w.server.turns :=
  hw.matched.mono fun _ _ hopened => hopened.step h

/-- The connection of a client and its label. -/
lemma of_connectUpload {conn : Connection} {w' : World}
    (hb : w.serverAction a = some (.connectUpload conn)) (hw' : w.clientSide a = some w') :
    ∃ label ∈ w.connecting a, w'.uploadConns[conn.id]? = some label := by
  cases a with
  | uploadConnect i port =>
    obtain ⟨call, hcall, hconn⟩ := Option.map_eq_some_iff.mp hb
    cases hconn
    simp only [clientSide] at hw'
    split at hw' <;> cases hw'
    rename_i addr pad req filename hcall'
    refine ⟨_, ?_, List.getElem?_concat_length⟩
    rw [connecting, hcall']
    rfl
  | server a =>
    cases hb
    simp [clientSide, Action.internal] at hw'
  | _ => simp [serverAction] at hb

lemma step (hw : w.Aligned) (hC : w.InTurn a) (h : w.step a = some t) : t.Aligned := by
  have hmatched := hw.matched_step h
  rcases step_cases h with ⟨-, hframe⟩ | ⟨b, w', hb, hw', hframe, ht⟩
  · exact ⟨hframe.server ▸ hw.alone, hframe.server ▸ hmatched⟩
  · have hstep := serverStep_server ht
    rw [hframe.server] at hstep
    generalize hs : t.server = s at hstep
    cases Server.BacklogRule.of_step hw.alone (hC.2 b hb) hstep with
    | empty _ _ hnil => exact of_nil (hs ▸ hnil)
    | keep _ _ hbacklog halone hturns =>
      subst hs
      refine ⟨fun _ => halone, ?_⟩
      rw [hbacklog]
      exact hmatched.of_take_prefix hturns
    | accept _ _ job conn hbacklog hturns hnone =>
      subst hs
      rw [hbacklog, hturns] at hmatched
      refine ⟨fun _ => ?_, hmatched.tail⟩
      rw [hnone]
      exact Nat.zero_le 1
    | connect conn =>
      obtain ⟨label, hlabel, hconn⟩ := of_connectUpload hb hw'
      obtain ⟨halone, job, hjob, hnames⟩ := hC.1 label hlabel
      have hopened : t.OpenedFor (job, conn) := by
        refine ⟨label, ?_, hnames⟩
        rw [(serverStep_conns ht).1]
        exact hconn
      refine ⟨fun _ => hs ▸ halone, ?_⟩
      rw [hs]
      exact hmatched.concat hjob hopened

/-- The first connection is the one for the job of the worker. -/
lemma acceptsOwn (hw : w.Aligned) (a : WorldAction) : w.AcceptsOwn a := by
  intro p hp
  unfold acceptance at hp
  split at hp
  · split at hp
    · rename_i i job conn backlog hpc hconn
      cases hp
      have halone := hw.alone (by rw [hconn]; exact List.cons_ne_nil _ _)
      obtain ⟨hawaiting, -⟩ := Server.awaiting_eq_singleton hpc rfl halone
      have hmatched := hw.matched
      rw [hconn, Server.turns, hawaiting] at hmatched
      exact hmatched.head
    · cases hp
  · cases hp

end Aligned

end World

/-- The bytes behind a datagram in a receive buffer that was never used. -/
def unused (d : Bytes) : Bytes := List.replicate (BUFFER_SIZE - d.length) 0

/-- Client `n` submits a job with one file. -/
def submission (n : UInt8) : List WorldAction :=
  let req : JobRequest := ⟨1, Vector.replicate 16 n, 7, 1, 4⟩
  let d := req.datagram 0 (cstr "true")
  [.inject ⟨n.toUInt32, 5000⟩ d, .deliver 0 (unused d) 0 (Vector.replicate 16 0),
    .server (.client (.stat none)), .server (.client (.mkdir true)),
    .server (.client (.append true 0)), .server (.client (.reply true))]

/-- Client `n` uploads the file for its job, call `i`, up to its connection; its acknowledgement
is number `k` on the way to the clients. -/
def upload (n : UInt8) (i k : ℕ) (fileSize : UInt64) : List WorldAction :=
  let req : UploadRequest := ⟨2, Vector.replicate 16 n, 7, fileSize, 1⟩
  let d := req.datagram 0 (cstr "a")
  [.uploadStart ⟨⟨n.toUInt32, 5000⟩, 0, req, cstr "a", .sending 0⟩, .uploadSend i true,
    .deliver 0 (unused d) 0 (Vector.replicate 16 0), .server (.client (.enqueue 0)),
    .server (.client (.reply true)), .uploadAnswer i k ⟨0, 0, Vector.replicate 16 0⟩,
    .uploadConnect i 6000]

/-- Worker `i` picks a job, accepts a connection and stores some bytes. -/
def storeRun (i : ℕ) : List WorldAction :=
  [.pick, .lookup, .accept true, .openFile true, .recv 100 100].map fun a => .server (.worker i a)

/-- If clients connect when it is the turn of their jobs, and the order of the jobs is kept while
connections wait, all bytes are stored under the file of the request for which their connection was
opened. -/
theorem along_storesOwn {dir : Bytes} {as : List WorldAction}
    (hC : Along World.step World.InTurn (.init dir) as) :
    Along World.step World.StoresOwn (.init dir) as := by
  refine along_storesOwn_of_acceptsOwn ?_
  intro pre a t hpre hrun
  refine World.Aligned.acceptsOwn ?_ a
  exact along_invariant (fun _ _ _ hw hC h => World.Aligned.step hw hC h) (.of_nil rfl)
    (hC.of_prefix ((List.prefix_append _ _).trans hpre)) hrun

/-- Client 2 connects while client 1 waits; two workers store what they send. -/
theorem along_storesOwn_two :
    let as := submission 1 ++ submission 2 ++ upload 1 0 2 2000 ++ upload 2 1 2 3000
      ++ storeRun 0 ++ storeRun 1
    ((run World.step (.init []) as).map fun t =>
      (t.server.workers.filterMap Worker.transfer).map fun p => (p.1.clientId, p.2.id))
        = some [(Vector.replicate 16 1, 0), (Vector.replicate 16 2, 1)] ∧
    Along World.step World.StoresOwn (.init []) as :=
  ⟨by decide +kernel, along_storesOwn (by decide +kernel)⟩

/-- Client 1 uploads 2000 bytes, client 2 uploads 1000 bytes and is served first; the connection
that is accepted for it is that of client 1. -/
theorem not_along_storesOwn :
    ¬ ∀ dir as, Along World.step World.StoresOwn (.init dir) as := by
  intro h
  have hrun := h [] (submission 1 ++ submission 2 ++ upload 1 0 2 2000 ++ upload 2 1 2 1000
    ++ storeRun 0)
  revert hrun
  decide +kernel

end Pcd
