import PcdProject.Server.ClientTable
import PcdProject.Server.JobTable

/-!
# Registered clients

Whose requests have an effect. `handle_udp_message` enters jobs, uploads and downloads without a
look at the table of the clients; only `download_thread` searches it, when it serves a download.
Which ids are in the table follows from the requests, heartbeats, sweeps and kicks so far.
-/

namespace Pcd

open Transition

/-! ### The history of a client -/

/-- The time at which a client was last heard of, after an operation on the table; `none` if the
operation removes it. -/
def TableOp.heard (c : ClientId) (last : ℤ) : TableOp → Option ℤ
  | .register _ _ _       => some last
  | .heartbeat id _ now   => some (if id = c then now else last)
  | .cleanup timeout now  => if now - last < timeout then some last else none
  | .kick id              => if id = c then none else some last

/-- The id was given out, and since then it was neither kicked nor found silent by a sweep. -/
def registered (c : ClientId) : List TableOp → Bool
  | []                          => false
  | .register id _ now :: ops   =>
    (id = c && (run (TableOp.heard c) now ops).isSome) || registered c ops
  | _ :: ops                    => registered c ops

section History

variable {c : ClientId} {cs : List ClientInfo} {last last' : ℤ} {ops : List TableOp}

/-- The table has an entry of the client with this time. -/
def Listed (c : ClientId) (last : ℤ) (cs : List ClientInfo) : Prop :=
  ∃ e ∈ cs, e.clientId = c ∧ e.lastHeartbeat = last

lemma Listed.heartbeat (h : Listed c last cs) (id : ClientId) (addr : SockAddr) (now : ℤ) :
    Listed c (if id = c then now else last) (updateHeartbeat cs id addr now) := by
  obtain ⟨e, he, rfl, rfl⟩ := h
  induction cs with
  | nil => cases he
  | cons d cs ih =>
    rw [updateHeartbeat_cons]
    by_cases hd : d.clientId = id
    · rw [if_pos hd]
      by_cases hid : id = e.clientId
      · rw [if_pos hid]
        exact ⟨_, List.mem_cons_self, hd.trans hid, rfl⟩
      · rw [if_neg hid]
        have htail : e ∈ cs := by
          rcases List.mem_cons.mp he with rfl | he
          · exact absurd hd.symm hid
          · exact he
        exact ⟨e, List.mem_cons_of_mem _ htail, rfl, rfl⟩
    · rw [if_neg hd]
      rcases List.mem_cons.mp he with rfl | he
      · rw [if_neg (Ne.symm hd)]
        exact ⟨e, List.mem_cons_self, rfl, rfl⟩
      · obtain ⟨e', he', hid', hlast'⟩ := ih he
        exact ⟨e', List.mem_cons_of_mem _ he', hid', hlast'⟩

lemma Listed.apply {op : TableOp} (h : Listed c last cs)
    (hop : TableOp.heard c last op = some last') : Listed c last' (op.apply cs) := by
  cases op with
  | register id addr now =>
    cases hop
    obtain ⟨e, he, hid, hlast⟩ := h
    exact ⟨e, List.mem_append_left _ he, hid, hlast⟩
  | heartbeat id addr now =>
    cases hop
    exact h.heartbeat id addr now
  | cleanup timeout now =>
    simp only [TableOp.heard] at hop
    split_ifs at hop with hyoung
    cases hop
    obtain ⟨e, he, hid, rfl⟩ := h
    exact ⟨e, List.mem_filter.mpr ⟨he, decide_eq_true hyoung⟩, hid, rfl⟩
  | kick id =>
    simp only [TableOp.heard] at hop
    split_ifs at hop with hid
    cases hop
    obtain ⟨e, he, rfl, hlast⟩ := h
    refine ⟨e, ?_, rfl, hlast⟩
    exact (List.mem_eraseP_of_neg (by simpa using Ne.symm hid)).mpr he

lemma Listed.foldl (h : Listed c last cs) (hops : run (TableOp.heard c) last ops = some last') :
    Listed c last' (ops.foldl TableOp.apply cs) := by
  induction ops generalizing cs last with
  | nil =>
    cases hops
    exact h
  | cons op ops ih =>
    obtain ⟨next, hop, hops⟩ := Option.bind_eq_some_iff.mp hops
    exact ih (h.apply hop) hops

/-- A registered client is in the table. -/
lemma mem_of_registered (h : registered c ops = true) (cs : List ClientInfo) :
    c ∈ (ops.foldl TableOp.apply cs).map ClientInfo.clientId := by
  induction ops generalizing cs with
  | nil => cases h
  | cons op ops ih =>
    cases op with
    | register id addr now =>
      rcases Bool.or_eq_true_iff.mp h with hnow | hlater
      · obtain ⟨hid, hheard⟩ := Bool.and_eq_true_iff.mp hnow
        obtain ⟨last, hlast⟩ := Option.isSome_iff_exists.mp hheard
        have hnew : Listed c now (TableOp.apply cs (.register id addr now)) :=
          ⟨⟨id, addr, now⟩, List.mem_append_right _ (List.mem_singleton_self _),
            of_decide_eq_true hid, rfl⟩
        obtain ⟨e, he, rfl, -⟩ := hnew.foldl hlast
        exact List.mem_map_of_mem he
      · exact ih hlater _
    | heartbeat | cleanup | kick => exact ih h _

/-- The id was given out, and the operations since then leave the client with this time. -/
def GivenOut (c : ClientId) (last : ℤ) (ops : List TableOp) : Prop :=
  ∃ pre addr now post, ops = pre ++ .register c addr now :: post ∧
    run (TableOp.heard c) now post = some last

lemma registered_of_givenOut (h : GivenOut c last ops) : registered c ops = true := by
  obtain ⟨pre, addr, now, post, rfl, hpost⟩ := h
  induction pre with
  | nil => simp [registered, hpost]
  | cons op pre ih => cases op <;> simp [registered, ih]

lemma GivenOut.concat {op : TableOp} (h : GivenOut c last ops)
    (hop : TableOp.heard c last op = some last') : GivenOut c last' (ops ++ [op]) := by
  obtain ⟨pre, addr, now, post, rfl, hpost⟩ := h
  refine ⟨pre, addr, now, post ++ [op], by simp, ?_⟩
  exact run_concat_eq_some.mpr ⟨last, hpost, hop⟩

/-- Every entry of the map was given out. -/
lemma givenOut_of_mem (ops : List TableOp) :
    ∀ e ∈ (ops.foldl TableOp.applyMap .empty).entries, GivenOut e.1 e.2.2 ops := by
  induction ops using List.reverseRecOn with
  | nil =>
    rintro e ⟨⟩
  | append_singleton ops op ih =>
    rw [List.foldl_concat]
    intro e he
    cases op with
    | register id addr now =>
      simp only [TableOp.applyMap, OrderedMap.append] at he
      split_ifs at he
      · exact (ih e he).concat rfl
      · rcases List.mem_append.mp he with he | he
        · exact (ih e he).concat rfl
        · obtain rfl := List.mem_singleton.mp he
          exact ⟨ops, addr, now, [], rfl, rfl⟩
    | heartbeat id addr now =>
      obtain ⟨d, hd, rfl⟩ := List.mem_map.mp he
      by_cases hid : d.1 = id
      · subst hid
        rw [if_pos rfl]
        exact (ih d hd).concat (congrArg some (if_pos rfl))
      · rw [if_neg hid]
        exact (ih d hd).concat (congrArg some (if_neg (Ne.symm hid)))
    | cleanup timeout now =>
      obtain ⟨he, hyoung⟩ := List.mem_filter.mp he
      exact (ih e he).concat (if_pos (of_decide_eq_true hyoung))
    | kick id =>
      obtain ⟨he, hid⟩ := List.mem_filter.mp he
      exact (ih e he).concat (if_neg (Ne.symm (of_decide_eq_true hid)))

end History

/-! ### Entries that requests create -/

/-- Between `s` and `t` a request was entered into a table, under the id of a client. -/
inductive Creates (s t : Server) (id : ClientId) : Prop where
  | job (job : PendingJob) (hid : job.clientId = id)
      (hjobs : t.pendingJobs = s.pendingJobs ++ [job])
  | upload (job : UploadJob) (hid : job.clientId = id)
      (hqueue : t.uploadQueue = enqueueUpload s.uploadQueue job)
  | download (job : DownloadJob) (hid : job.clientId = id)
      (hqueue : t.downloadQueue = s.downloadQueue ++ [job])

namespace Server

/-- The id in the request that the step enters into a table. -/
def createdIds (s : Server) (a : Action) : List ClientId :=
  match s.clientThread, a with
  | .jobAppend req _ _, .client (.append true _)  =>
    if s.processing.holdsJobsMutex then [] else [req.clientId]
  | .uploadEnqueue req _ _, .client (.enqueue _)   => [req.clientId]
  | .downloadEnqueue req _ _, .client (.enqueue _) => [req.clientId]
  | _, _ => []

/-- What the step enters into a table bears an id in the table of the clients. -/
def CreatesListed (s : Server) (a : Action) : Prop :=
  ∀ t id, s.step a = some t → Creates s t id → id ∈ s.clients.map ClientInfo.clientId

end Server

section Creates

variable {s t : Server} {a : Action} {id : ClientId}

lemma not_creates (hjobs : t.pendingJobs.length ≤ s.pendingJobs.length)
    (hup : t.uploadQueue.length ≤ s.uploadQueue.length)
    (hdown : t.downloadQueue.length ≤ s.downloadQueue.length) : ¬ Creates s t id := by
  rintro (⟨job, -, h⟩ | ⟨job, -, h⟩ | ⟨job, -, h⟩)
  · rw [h, List.length_append, List.length_singleton] at hjobs
    omega
  · rw [h, enqueueUpload, StableQueue.length_insert] at hup
    omega
  · rw [h, List.length_append, List.length_singleton] at hdown
    omega

lemma enqueueUpload_ne {queue : List UploadJob} {job : UploadJob} :
    enqueueUpload queue job ≠ queue := by
  intro h
  have hlen := congrArg List.length h
  rw [enqueueUpload, StableQueue.length_insert] at hlen
  exact Nat.succ_ne_self _ hlen

lemma mem_createdIds (h : s.step a = some t) (hcreates : Creates s t id) :
    id ∈ s.createdIds a := by
  cases SystemRule.of_step h with
  | client a _ h =>
    cases h with
    | move | clients => exact absurd hcreates (not_creates le_rfl le_rfl le_rfl)
    | appendJob req cmd src now hpc hfree =>
      simp only [Server.createdIds, hpc, hfree, Bool.false_eq_true, if_false,
        List.mem_singleton]
      cases hcreates with
      | job job hid hjobs =>
        obtain rfl := (List.cons.inj (List.append_cancel_left hjobs)).1
        exact hid.symm
      | upload job hid hqueue => exact absurd hqueue.symm enqueueUpload_ne
      | download job hid hqueue => simp at hqueue
    | enqueueUpload req name src now hpc =>
      simp only [Server.createdIds, hpc, List.mem_singleton]
      cases hcreates with
      | job job hid hjobs => simp at hjobs
      | upload job hid hqueue =>
        obtain rfl := StableQueue.insert_injective hqueue
        exact hid.symm
      | download job hid hqueue => simp at hqueue
    | enqueueDownload req name src now hpc =>
      simp only [Server.createdIds, hpc, List.mem_singleton]
      cases hcreates with
      | job job hid hjobs => simp at hjobs
      | upload job hid hqueue => exact absurd hqueue.symm enqueueUpload_ne
      | download job hid hqueue =>
        obtain rfl := (List.cons.inj (List.append_cancel_left hqueue)).1
        exact hid.symm
  | worker w a _ h =>
    refine absurd hcreates ?_
    cases h with
    | pick job queue hpc hqueue hlt =>
      refine not_creates le_rfl ?_ le_rfl
      rw [hqueue]
      exact Nat.le_succ _
    | update job remaining total now hpc hfree =>
      have hlen := congrArg List.length (map_key_countFile job.key now s.pendingJobs)
      rw [List.length_map, List.length_map] at hlen
      exact not_creates hlen.le le_rfl le_rfl
    | lookup | accept | acceptFail | openFile | openFail | recv | shortWrite | hangup | close
    | finish => exact not_creates le_rfl le_rfl le_rfl
  | processing a _ h =>
    refine absurd hcreates ?_
    cases h with
    | remove originalDir i hpc =>
      exact not_creates (List.length_eraseIdx_le _ _) le_rfl le_rfl
    | _ => exact not_creates le_rfl le_rfl le_rfl
  | download a _ h =>
    refine absurd hcreates ?_
    cases h with
    | pop conn job queue hpc hqueue =>
      refine not_creates le_rfl le_rfl ?_
      rw [hqueue]
      exact Nat.le_succ _
    | _ => exact not_creates le_rfl le_rfl le_rfl
  | sweep | kick | limit | limitIgnored | connectUpload | connectDownload =>
    exact absurd hcreates (not_creates le_rfl le_rfl le_rfl)

/-- The ids are those of the entries that the step creates. -/
lemma mem_createdIds_iff :
    id ∈ s.createdIds a ↔ ∃ t, s.step a = some t ∧ Creates s t id := by
  constructor
  · intro h
    unfold Server.createdIds at h
    split at h
    · rename_i req cmd src now hpc
      split_ifs at h with hheld
      · cases h
      · obtain rfl := List.mem_singleton.mp h
        have hstep : s.step (.client (.append true now)) = some { s with
            pendingJobs := s.pendingJobs ++ [.create req cmd src now]
            clientThread := .jobReply req src true } := by
          simp [Server.step, Server.clientStep, hpc, hheld]
        exact ⟨_, hstep, .job _ rfl rfl⟩
    · rename_i req name src now hpc
      obtain rfl := List.mem_singleton.mp h
      have hstep : s.step (.client (.enqueue now)) = some { s with
          uploadQueue := enqueueUpload s.uploadQueue (.create req name now)
          clientThread := .uploadReply req name src } := by
        simp [Server.step, Server.clientStep, hpc]
      exact ⟨_, hstep, .upload _ rfl rfl⟩
    · rename_i req name src now hpc
      obtain rfl := List.mem_singleton.mp h
      have hstep : s.step (.client (.enqueue now)) = some { s with
          downloadQueue := s.downloadQueue ++ [.create req name src]
          clientThread := .receiving } := by
        simp [Server.step, Server.clientStep, hpc]
      exact ⟨_, hstep, .download _ rfl rfl⟩
    · cases h
  · rintro ⟨t, hstep, hcreates⟩
    exact mem_createdIds hstep hcreates

end Creates

/-! ### Runs with their history -/

namespace Server

/-- A step of the server, with the operations on the table of the clients so far. -/
def recordStep (p : Server × List TableOp) (a : Action) : Option (Server × List TableOp) :=
  (p.1.step a).map fun t => (t, p.2 ++ a.tableOps)

/-- What the step enters into a table bears the id of a registered client. -/
def CreatesRegistered (p : Server × List TableOp) (a : Action) : Prop :=
  ∀ id ∈ p.1.createdIds a, registered id p.2 = true

instance (p : Server × List TableOp) (a : Action) : Decidable (CreatesRegistered p a) :=
  List.decidableBAll _ _

/-- If the step gives out an id, no client in the table has it. -/
def GivesFresh (p : Server × List TableOp) (a : Action) : Prop :=
  ∀ id ∈ p.1.clients.map ClientInfo.clientId, ∀ op ∈ a.tableOps, op.newId ≠ some id

end Server

section History

variable {dir : Bytes} {as : List Action} {s : Server} {p : Server × List TableOp}

lemma run_recordStep (h : run Server.step (.init dir) as = some s) :
    ∃ ops, run Server.recordStep (.init dir, []) as = some (s, ops) := by
  refine run_induction (P := fun as s =>
    ∃ ops, run Server.recordStep (.init dir, []) as = some (s, ops)) ⟨[], rfl⟩ ?_ h
  intro as a s t hrun ha ih
  obtain ⟨ops, hops⟩ := ih
  refine ⟨ops ++ a.tableOps, run_concat_eq_some.mpr ⟨_, hops, ?_⟩⟩
  rw [Server.recordStep, ha]
  rfl

lemma step_of_recordStep {q : Server × List TableOp} {a : Action}
    (h : Server.recordStep p a = some q) : p.1.step a = some q.1 ∧ q.2 = p.2 ++ a.tableOps := by
  obtain ⟨t, ht, rfl⟩ := Option.map_eq_some_iff.mp h
  exact ⟨ht, rfl⟩

lemma run_of_recordStep (h : run Server.recordStep (.init dir, []) as = some p) :
    run Server.step (.init dir) as = some p.1 ∧ p.1.clients = p.2.foldl TableOp.apply [] := by
  refine run_induction (P := fun as p => run Server.step (.init dir) as = some p.1 ∧
    p.1.clients = p.2.foldl TableOp.apply []) ⟨rfl, rfl⟩ ?_ h
  intro as a p q _ ha ih
  obtain ⟨hstep, hops⟩ := step_of_recordStep ha
  refine ⟨run_concat_eq_some.mpr ⟨_, ih.1, hstep⟩, ?_⟩
  rw [clients_of_step hstep, hops, List.foldl_append, ih.2]

/-- In every run a registered client is in the table. -/
lemma listed_of_registered {id : ClientId}
    (h : run Server.recordStep (.init dir, []) as = some p) (hid : registered id p.2 = true) :
    id ∈ p.1.clients.map ClientInfo.clientId := by
  rw [(run_of_recordStep h).2]
  exact mem_of_registered hid []

/-- If no id is given out while a client has it, the table is the map that the operations build. -/
lemma entries_of_recordStep (hfresh : Along Server.recordStep Server.GivesFresh (.init dir, []) as)
    (h : run Server.recordStep (.init dir, []) as = some p) :
    p.1.clients.map ClientInfo.entry = (p.2.foldl TableOp.applyMap .empty).entries := by
  refine along_invariant (C := Server.GivesFresh) (I := fun p =>
    p.1.clients.map ClientInfo.entry = (p.2.foldl TableOp.applyMap .empty).entries) ?_ rfl hfresh h
  intro p a q hp hC ha
  obtain ⟨hstep, hops⟩ := step_of_recordStep ha
  rw [clients_of_step hstep, hops, List.foldl_append]
  -- a step makes at most one operation
  match hop : a.tableOps with
  | []          => exact hp
  | [op]        =>
    apply map_entry_apply hp
    intro id hid
    exact hC id hid op (by rw [hop]; exact List.mem_singleton_self op)
  | _ :: _ :: _ =>
    exfalso
    revert hop
    unfold Action.tableOps
    split
    · split <;> rintro ⟨⟩
    all_goals rintro ⟨⟩

end History

/-! ### Main result -/

/-- In a run in which only requests of registered clients are entered into the tables, whatever is
entered there bears an id that is in the table of the clients. -/
theorem created_listed {dir : Bytes} {as : List Action}
    (h : Along Server.recordStep Server.CreatesRegistered (.init dir, []) as) :
    Along Server.step Server.CreatesListed (.init dir) as := by
  intro pre a s hpre hrun t id hstep hcreates
  obtain ⟨ops, hops⟩ := run_recordStep hrun
  have hregistered : registered id ops = true :=
    h pre a (s, ops) hpre hops id (mem_createdIds hstep hcreates)
  exact listed_of_registered hops hregistered

/-- A client registers and requests a job. -/
theorem created_listed_registered :
    Along Server.step Server.CreatesListed (.init [])
      (.client (.receive (fillBuffer (1 :: List.replicate 7 0) 0) 8 ⟨1, 1⟩ 0
        (Vector.replicate 16 1)) :: jobRun false) :=
  created_listed (by decide +kernel)

/-- After the kick of a client its job request creates a job. -/
theorem not_created_listed_kicked :
    ¬ ∀ dir as, Along Server.step Server.CreatesListed (.init dir) as := by
  intro h
  let c : ClientId := Vector.replicate 16 1
  let pre : List Action :=
    [.client (.receive (fillBuffer (1 :: List.replicate 7 0) 0) 8 ⟨1, 1⟩ 0 c), .kick c]
      ++ (jobRun false).take 3
  obtain ⟨s, hs, hids⟩ := Option.map_eq_some_iff.mp
    (show (run Server.step (.init []) pre).map
      (fun s => (s.clients, s.createdIds (.client (.append true 0)))) = some ([], [c]) by
        decide +kernel)
  obtain ⟨hclients, hcreated⟩ := Prod.mk.inj hids
  have hc : c ∈ s.createdIds (.client (.append true 0)) := by
    rw [hcreated]
    exact List.mem_singleton_self c
  obtain ⟨t, hstep, hcreates⟩ := mem_createdIds_iff.mp hc
  have hlisted := h [] _ pre _ s (List.prefix_refl _) hs t c hstep hcreates
  rw [hclients] at hlisted
  cases hlisted

/-- Where no id is given out while a client has it, no other run will do. -/
theorem created_listed_iff {dir : Bytes} {as : List Action}
    (hfresh : Along Server.recordStep Server.GivesFresh (.init dir, []) as) :
    Along Server.step Server.CreatesListed (.init dir) as ↔
      Along Server.recordStep Server.CreatesRegistered (.init dir, []) as := by
  constructor
  · intro h pre a p hpre hrun id hid
    obtain ⟨t, hstep, hcreates⟩ := mem_createdIds_iff.mp hid
    have hlisted := h pre a p.1 hpre (run_of_recordStep hrun).1 t id hstep hcreates
    have hentries := entries_of_recordStep (hfresh.of_prefix ((List.prefix_append _ _).trans hpre))
      hrun
    obtain ⟨e, he, rfl⟩ := List.mem_map.mp hlisted
    have hentry : e.entry ∈ (p.2.foldl TableOp.applyMap .empty).entries := by
      rw [← hentries]
      exact List.mem_map_of_mem he
    exact registered_of_givenOut (givenOut_of_mem _ _ hentry)
  · intro h pre a s hpre hrun t id hstep hcreates
    obtain ⟨ops, hops⟩ := run_recordStep hrun
    exact listed_of_registered hops (h pre a (s, ops) hpre hops id (mem_createdIds hstep hcreates))

end Pcd
