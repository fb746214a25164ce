import PcdProject.Protocol.Requests
import PcdProject.Server.ClientThread

/-!
# Acknowledgements and effects

What the reply to a datagram says about the tables: an acknowledgement with `STATUS_OK` is sent
exactly if the request was entered into its table, and none for a request that cannot be met.
-/

namespace Pcd

open CLayout Transition

/-! ### Replies -/

/-- `message_id`, which is at the same place in all requests. -/
def requestMessageId (buffer : Bytes) : UInt32 := UInt32.ofNat (leNat ((buffer.drop 4).take 4))

/-- The message id that the server sets. -/
def Reply.messageId : Reply → Option UInt32
  | .clientIdAck messageId _         => some messageId
  | .jobAck messageId _ _ _          => some messageId
  | .uploadAck messageId _ _ _ _ _   => some messageId
  | .downloadAck messageId _ _ _ _   => some messageId
  | .jobResult _ _ _ | .kicked       => none

/-- The type of an acknowledgement with `STATUS_OK`. -/
def Reply.acknowledged : Reply → Option MessageType
  | .jobAck _ _ .ok _          => some .jobAck
  | .uploadAck _ _ .ok _ _ _   => some .uploadAck
  | .downloadAck _ .ok _ _ _   => some .downloadAck
  | _                          => none

/-- The type of the acknowledgement with `STATUS_OK` among the replies. -/
def acknowledgedBy (reply : Option Reply) : Option MessageType := reply.bind Reply.acknowledged

/-- The job that a JOB_REQ asks for. -/
def PendingJob.IsRequested (buffer : Bytes) (job : PendingJob) : Prop :=
  job.clientId = (JobRequest.read buffer).clientId ∧ job.jobId = (JobRequest.read buffer).jobId ∧
    job.fileCount = (JobRequest.read buffer).fileCount.toNat ∧ job.filesReceived = 0

/-! ### What a datagram changes -/

/-- The outcomes of `handle_udp_message` when the allocations succeed. -/
inductive HandleRule (buffer : Bytes) (t : Tables) : Tables → Option Reply → Prop where
  | ignored : HandleRule buffer t t none
  | clients (clients : List ClientInfo) (reply : Option Reply)
      (htype : buffer.headD 0 = MessageType.clientIdReq.code ∨
        buffer.headD 0 = MessageType.heartbeat.code)
      (hreply : ∀ r ∈ reply, ∃ id, r = .clientIdAck (requestMessageId buffer) id) :
      HandleRule buffer t { t with clients := clients } reply
  | jobCreated (job : PendingJob) (reply : Reply)
      (htype : buffer.headD 0 = MessageType.jobReq.code) (hjob : job.IsRequested buffer)
      (hreply : reply.messageId = some (requestMessageId buffer))
      (hack : reply.acknowledged = some .jobAck) :
      HandleRule buffer t { t with pendingJobs := t.pendingJobs ++ [job] } (some reply)
  | uploadQueued (job : UploadJob) (reply : Reply)
      (htype : buffer.headD 0 = MessageType.uploadReq.code)
      (hreply : reply.messageId = some (requestMessageId buffer))
      (hack : reply.acknowledged = some .uploadAck) :
      HandleRule buffer t { t with uploadQueue := enqueueUpload t.uploadQueue job } (some reply)
  | downloadQueued (job : DownloadJob) (reply : Reply)
      (htype : buffer.headD 0 = MessageType.downloadReq.code)
      (hreply : reply.messageId = some (requestMessageId buffer))
      (hack : reply.acknowledged = some .downloadAck) :
      HandleRule buffer t { t with downloadQueue := t.downloadQueue ++ [job] } (some reply)
  | refused (reply : Reply) (hreply : reply.messageId = some (requestMessageId buffer))
      (hack : reply.acknowledged = none) : HandleRule buffer t t (some reply)

section Handle

variable {env : Env} {src : SockAddr} {t t' : Tables} {buffer : Bytes} {n : ℕ}
variable {reply : Option Reply}

lemma HandleRule.of_job {cmd : Bytes} (htype : buffer.headD 0 = MessageType.jobReq.code) :
    HandleRule buffer t
      { t with pendingJobs := (createJob env src (.read buffer) cmd t.pendingJobs).1 }
      (some (jobAck (.read buffer) (createJob env src (.read buffer) cmd t.pendingJobs).2)) := by
  unfold createJob
  dsimp only
  split_ifs
  · exact .jobCreated _ _ htype ⟨rfl, rfl, rfl, rfl⟩ rfl rfl
  · exact .refused _ rfl rfl

lemma HandleRule.of_download {name : Bytes}
    (htype : buffer.headD 0 = MessageType.downloadReq.code) :
    HandleRule buffer t (handleDownloadRequest env src (.read buffer) name t).1
      (handleDownloadRequest env src (.read buffer) name t).2 := by
  unfold handleDownloadRequest
  split
  · exact .refused _ rfl rfl
  · exact .downloadQueued _ _ htype rfl rfl

lemma HandleRule.of_handleUdpMessage (hmalloc : env.mallocOk = true) :
    HandleRule buffer t (handleUdpMessage env src t buffer n).1
      (handleUdpMessage env src t buffer n).2 := by
  unfold handleUdpMessage
  cases hread : readRequest buffer n with
  | none => exact .ignored
  | some req =>
    cases RequestRule.of_readRequest hread with
    | clientId htype =>
      refine .clients _ _ (.inl (ofCode_eq_some htype)) ?_
      rintro r ⟨⟩
      exact ⟨_, rfl⟩
    | heartbeat htype =>
      refine .clients _ _ (.inr (ofCode_eq_some htype)) ?_
      rintro r ⟨⟩
    | job htype cmd hcmd =>
      simp only [hmalloc, if_true]
      exact .of_job (ofCode_eq_some htype)
    | upload htype filename hname => exact .uploadQueued _ _ (ofCode_eq_some htype) rfl rfl
    | download htype filename hname => exact .of_download (ofCode_eq_some htype)

/-! ### What a reply says -/

/-- The reply, if there is one, has the message id of the request. An acknowledgement with
`STATUS_OK` is sent exactly if its table has got a new entry, no other table than the one that
belongs to the type of the datagram changes, and without such an acknowledgement no job, upload or
download is entered or lost. -/
structure Reports (buffer : Bytes) (t t' : Tables) (reply : Option Reply) : Prop where
  messageId : ∀ r ∈ reply, r.messageId = some (requestMessageId buffer)
  job       : acknowledgedBy reply = some .jobAck ↔
    ∃ job, t'.pendingJobs = t.pendingJobs ++ [job] ∧ job.IsRequested buffer
  upload    : acknowledgedBy reply = some .uploadAck ↔
    ∃ job, t'.uploadQueue.Perm (job :: t.uploadQueue)
  download  : acknowledgedBy reply = some .downloadAck ↔
    ∃ job, t'.downloadQueue = t.downloadQueue ++ [job]
  unchanged : acknowledgedBy reply = none → t'.pendingJobs = t.pendingJobs ∧
    t'.uploadQueue = t.uploadQueue ∧ t'.downloadQueue = t.downloadQueue
  ownJobs      : buffer.headD 0 ≠ MessageType.jobReq.code → t'.pendingJobs = t.pendingJobs
  ownUploads   : buffer.headD 0 ≠ MessageType.uploadReq.code → t'.uploadQueue = t.uploadQueue
  ownDownloads : buffer.headD 0 ≠ MessageType.downloadReq.code →
    t'.downloadQueue = t.downloadQueue
  ownClients   : buffer.headD 0 ≠ MessageType.clientIdReq.code →
    buffer.headD 0 ≠ MessageType.heartbeat.code → t'.clients = t.clients

lemma not_perm_cons_self {α : Type*} {l : List α} : ¬ ∃ a, l.Perm (a :: l) := by
  rintro ⟨a, hperm⟩
  exact Nat.succ_ne_self _ hperm.length_eq.symm

lemma not_eq_append_self {α : Type*} {l : List α} : ¬ ∃ a, l = l ++ [a] := by
  rintro ⟨a, heq⟩
  simp at heq

namespace Reports

/-- Nothing is entered, and nothing is acknowledged. -/
lemma quiet (hmessage : ∀ r ∈ reply, r.messageId = some (requestMessageId buffer))
    (hack : acknowledgedBy reply = none) (hjobs : t'.pendingJobs = t.pendingJobs)
    (hup : t'.uploadQueue = t.uploadQueue) (hdown : t'.downloadQueue = t.downloadQueue)
    (hclients : buffer.headD 0 ≠ MessageType.clientIdReq.code →
      buffer.headD 0 ≠ MessageType.heartbeat.code → t'.clients = t.clients) :
    Reports buffer t t' reply where
  messageId := hmessage
  job := by
    rw [hack, hjobs]
    refine iff_of_false nofun ?_
    rintro ⟨job, heq, -⟩
    exact not_eq_append_self ⟨job, heq⟩
  upload := by
    rw [hack, hup]
    exact iff_of_false nofun not_perm_cons_self
  download := by
    rw [hack, hdown]
    exact iff_of_false nofun not_eq_append_self
  unchanged := fun _ => ⟨hjobs, hup, hdown⟩
  ownJobs := fun _ => hjobs
  ownUploads := fun _ => hup
  ownDownloads := fun _ => hdown
  ownClients := hclients

lemma jobCreated {job : PendingJob} {r : Reply} (htype : buffer.headD 0 = MessageType.jobReq.code)
    (hjob : job.IsRequested buffer) (hmessage : r.messageId = some (requestMessageId buffer))
    (hack : r.acknowledged = some .jobAck) :
    Reports buffer t { t with pendingJobs := t.pendingJobs ++ [job] } (some r) where
  messageId := by
    rintro _ ⟨⟩
    exact hmessage
  job := iff_of_true hack ⟨job, rfl, hjob⟩
  upload := iff_of_false (by simp [acknowledgedBy, hack]) not_perm_cons_self
  download := iff_of_false (by simp [acknowledgedBy, hack]) not_eq_append_self
  unchanged := fun hnone => by simp [acknowledgedBy, hack] at hnone
  ownJobs := fun hne => absurd htype hne
  ownUploads := fun _ => rfl
  ownDownloads := fun _ => rfl
  ownClients := fun _ _ => rfl

lemma uploadQueued {job : UploadJob} {r : Reply}
    (htype : buffer.headD 0 = MessageType.uploadReq.code)
    (hmessage : r.messageId = some (requestMessageId buffer))
    (hack : r.acknowledged = some .uploadAck) :
    Reports buffer t { t with uploadQueue := enqueueUpload t.uploadQueue job } (some r) where
  messageId := by
    rintro _ ⟨⟩
    exact hmessage
  job := by
    refine iff_of_false (by simp [acknowledgedBy, hack]) ?_
    rintro ⟨job, heq, -⟩
    exact not_eq_append_self ⟨job, heq⟩
  upload := iff_of_true hack ⟨job, StableQueue.insert_perm _ _ _⟩
  download := iff_of_false (by simp [acknowledgedBy, hack]) not_eq_append_self
  unchanged := fun hnone => by simp [acknowledgedBy, hack] at hnone
  ownJobs := fun _ => rfl
  ownUploads := fun hne => absurd htype hne
  ownDownloads := fun _ => rfl
  ownClients := fun _ _ => rfl

lemma downloadQueued {job : DownloadJob} {r : Reply}
    (htype : buffer.headD 0 = MessageType.downloadReq.code)
    (hmessage : r.messageId = some (requestMessageId buffer))
    (hack : r.acknowledged = some .downloadAck) :
    Reports buffer t { t with downloadQueue := t.downloadQueue ++ [job] } (some r) where
  messageId := by
    rintro _ ⟨⟩
    exact hmessage
  job := by
    refine iff_of_false (by simp [acknowledgedBy, hack]) ?_
    rintro ⟨job, heq, -⟩
    exact not_eq_append_self ⟨job, heq⟩
  upload := iff_of_false (by simp [acknowledgedBy, hack]) not_perm_cons_self
  download := iff_of_true hack ⟨job, rfl⟩
  unchanged := fun hnone => by simp [acknowledgedBy, hack] at hnone
  ownJobs := fun _ => rfl
  ownUploads := fun _ => rfl
  ownDownloads := fun hne => absurd htype hne
  ownClients := fun _ _ => rfl

lemma of_handleRule (h : HandleRule buffer t t' reply) : Reports buffer t t' reply := by
  cases h with
  | ignored =>
    refine quiet ?_ rfl rfl rfl rfl fun _ _ => rfl
    rintro r ⟨⟩
  | refused r hreply hack =>
    refine quiet ?_ hack rfl rfl rfl fun _ _ => rfl
    rintro _ ⟨⟩
    exact hreply
  | clients clients reply htype hreply =>
    apply quiet
    · intro r hr
      obtain ⟨id, rfl⟩ := hreply r hr
      rfl
    · cases reply with
      | none => rfl
      | some r =>
        obtain ⟨id, rfl⟩ := hreply r rfl
        rfl
    · rfl
    · rfl
    · rfl
    · intro hid hheartbeat
      exact absurd htype (not_or.mpr ⟨hid, hheartbeat⟩)
  | jobCreated job r htype hjob hreply hack => exact jobCreated htype hjob hreply hack
  | uploadQueued job r htype hreply hack => exact uploadQueued htype hreply hack
  | downloadQueued job r htype hreply hack => exact downloadQueued htype hreply hack

end Reports

end Handle

/-! ### Refused requests -/

/-- The types that have a case in the switch. -/
def MessageType.handled : List MessageType :=
  [.clientIdReq, .heartbeat, .jobReq, .uploadReq, .downloadReq]

/-- The string behind the struct of a request is shorter than the request says. -/
inductive TooShort (buffer : Bytes) (n : ℕ) : Prop where
  | job (htype : buffer.headD 0 = MessageType.jobReq.code)
      (hlt : n < sizeof JobRequest.layout + (JobRequest.read buffer).cmdLen.toNat)
  | upload (htype : buffer.headD 0 = MessageType.uploadReq.code)
      (hlt : n < sizeof UploadRequest.layout + (UploadRequest.read buffer).nameLen.toNat)
  | download (htype : buffer.headD 0 = MessageType.downloadReq.code)
      (hlt : n < sizeof DownloadRequest.layout + (DownloadRequest.read buffer).nameLen.toNat)

/-- Nothing happens. -/
def Ignores (t t' : Tables) (reply : Option Reply) : Prop := t' = t ∧ reply = none

/-- No table changes, and nothing is acknowledged. -/
def Refuses (t t' : Tables) (reply : Option Reply) : Prop :=
  t' = t ∧ acknowledgedBy reply = none

/-- What the reply says agrees with what happened to the tables, and nothing happens to them
whenever the request cannot be met. -/
structure Acknowledges (env : Env) (buffer : Bytes) (n : ℕ) (t t' : Tables)
    (reply : Option Reply) : Prop extends Reports buffer t t' reply where
  empty        : n = 0 → Ignores t t' reply
  unknownType  : (∀ type ∈ MessageType.handled, buffer.headD 0 ≠ type.code) → Ignores t t' reply
  shortPayload : TooShort buffer n → Ignores t t' reply
  notDirectory : buffer.headD 0 = MessageType.jobReq.code →
    ∀ info ∈ env.stat (dirPath (JobRequest.read buffer).clientId (JobRequest.read buffer).jobId),
      info.isDir = false → Refuses t t' reply
  mkdirFails   : buffer.headD 0 = MessageType.jobReq.code →
    env.stat (dirPath (JobRequest.read buffer).clientId (JobRequest.read buffer).jobId) = none →
    env.mkdir (dirPath (JobRequest.read buffer).clientId (JobRequest.read buffer).jobId) = false →
      Refuses t t' reply
  statFails    : buffer.headD 0 = MessageType.downloadReq.code →
    ∀ name ∈ trailingString buffer n (sizeof DownloadRequest.layout)
      (DownloadRequest.read buffer).nameLen.toNat,
    env.stat (downloadPath (DownloadRequest.read buffer).clientId
      (DownloadRequest.read buffer).jobId name) = none → Refuses t t' reply

section Refusal

variable {env : Env} {src : SockAddr} {t : Tables} {buffer : Bytes} {n : ℕ}

lemma Ignores.refuses {t' : Tables} {reply : Option Reply} (h : Ignores t t' reply) :
    Refuses t t' reply := ⟨h.1, by rw [h.2]; rfl⟩

lemma Ignores.of_readRequest (h : readRequest buffer n = none) :
    Ignores t (handleUdpMessage env src t buffer n).1 (handleUdpMessage env src t buffer n).2 := by
  rw [handleUdpMessage, h]
  exact ⟨rfl, rfl⟩

lemma readRequest_of_unknown
    (h : ∀ type ∈ MessageType.handled, buffer.headD 0 ≠ type.code) :
    readRequest buffer n = none := by
  cases hread : readRequest buffer n with
  | none => rfl
  | some req =>
    exfalso
    cases RequestRule.of_readRequest hread with
    | clientId htype => exact h .clientIdReq (by decide) (ofCode_eq_some htype)
    | heartbeat htype => exact h .heartbeat (by decide) (ofCode_eq_some htype)
    | job htype => exact h .jobReq (by decide) (ofCode_eq_some htype)
    | upload htype => exact h .uploadReq (by decide) (ofCode_eq_some htype)
    | download htype => exact h .downloadReq (by decide) (ofCode_eq_some htype)

lemma ofCode_headD {type : MessageType} (h : buffer.headD 0 = type.code) :
    MessageType.ofCode (buffer.headD 0) = some type := by
  rw [h]
  cases type <;> decide

lemma readRequest_of_tooShort (h : TooShort buffer n) : readRequest buffer n = none := by
  unfold readRequest
  split_ifs
  · rfl
  · cases h with
    | job htype hlt =>
      simp only [ofCode_headD htype, trailingString, if_pos hlt, Option.map_none]
    | upload htype hlt =>
      simp only [ofCode_headD htype, trailingString, if_pos hlt, Option.map_none]
    | download htype hlt =>
      simp only [ofCode_headD htype, trailingString, if_pos hlt, Option.map_none]

/-- A JOB_REQ for a job whose directory cannot be used. -/
lemma Refuses.of_job (htype : buffer.headD 0 = MessageType.jobReq.code)
    (hdir : ∀ cmd, createJob env src (.read buffer) cmd t.pendingJobs = (t.pendingJobs, false)) :
    Refuses t (handleUdpMessage env src t buffer n).1 (handleUdpMessage env src t buffer n).2 := by
  cases hread : readRequest buffer n with
  | none => exact (Ignores.of_readRequest hread).refuses
  | some req =>
    have hcode := ofCode_headD htype
    cases RequestRule.of_readRequest hread with
    | job _ cmd =>
      rw [handleUdpMessage, hread]
      simp only [hdir]
      refine ⟨rfl, ?_⟩
      split_ifs <;> rfl
    | clientId htype' | heartbeat htype' | upload htype' | download htype' =>
      cases hcode.symm.trans htype'

/-- A DOWNLOAD_REQ for a file that is not there. -/
lemma Refuses.of_download {name : Bytes} (htype : buffer.headD 0 = MessageType.downloadReq.code)
    (hname : trailingString buffer n (sizeof DownloadRequest.layout)
      (DownloadRequest.read buffer).nameLen.toNat = some name)
    (hstat : env.stat (downloadPath (DownloadRequest.read buffer).clientId
      (DownloadRequest.read buffer).jobId name) = none) :
    Refuses t (handleUdpMessage env src t buffer n).1 (handleUdpMessage env src t buffer n).2 := by
  cases hread : readRequest buffer n with
  | none => exact (Ignores.of_readRequest hread).refuses
  | some req =>
    have hcode := ofCode_headD htype
    cases RequestRule.of_readRequest hread with
    | download _ name' hname' =>
      obtain rfl : name = name' := Option.some.inj (hname.symm.trans hname')
      rw [handleUdpMessage, hread]
      simp only [handleDownloadRequest, hstat]
      exact ⟨rfl, rfl⟩
    | clientId htype' | heartbeat htype' | job htype' | upload htype' =>
      cases hcode.symm.trans htype'

lemma Acknowledges.of_handleUdpMessage (hmalloc : env.mallocOk = true) :
    Acknowledges env buffer n t (handleUdpMessage env src t buffer n).1
      (handleUdpMessage env src t buffer n).2 where
  toReports := .of_handleRule (.of_handleUdpMessage hmalloc)
  empty := by
    rintro rfl
    exact .of_readRequest rfl
  unknownType := fun h => .of_readRequest (readRequest_of_unknown h)
  shortPayload := fun h => .of_readRequest (readRequest_of_tooShort h)
  notDirectory := by
    intro htype info hstat hdir
    refine .of_job htype fun cmd => ?_
    simp [createJob, Option.mem_def.mp hstat, hdir]
  mkdirFails := by
    intro htype hstat hmkdir
    refine .of_job htype fun cmd => ?_
    simp [createJob, hstat, hmkdir]
  statFails := fun htype name hname hstat => .of_download htype hname hstat

end Refusal

/-! ### Main result -/

/-- When a datagram has been handled, at most one reply was sent, to its source, what the reply says
agrees with what happened to the tables, and a request that cannot be met has changed none. -/
theorem acknowledged_iff_entered {s : Server} {buffer : Bytes} {n : ℕ} (env : Env)
    (src : SockAddr) (hmalloc : env.mallocOk = true) (hlen : buffer.length = BUFFER_SIZE)
    (hn : n ≤ BUFFER_SIZE) (hpc : s.clientThread = .receiving)
    (hfree : s.processing.holdsJobsMutex = false) :
    ∃ s' reply, run Server.clientStep s (ClientAction.ofDatagram env src buffer n) = some s' ∧
      s'.clientThread = .receiving ∧
      s'.outbox = s.outbox ++ (reply : Option Reply).toList.map (src, ·) ∧
      Acknowledges env buffer n s.toTables s'.toTables reply :=
  ⟨_, _, run_clientStep_ofDatagram env src buffer n s hlen hn hpc hfree, hpc, rfl,
    .of_handleUdpMessage hmalloc⟩

/-- A job request in front of which nothing happened. -/
theorem acknowledged_iff_entered_job :
    let buffer := fillBuffer
      ((⟨1, Vector.replicate 16 1, 7, 1, 4⟩ : JobRequest).datagram 0 (cstr "true")) 0
    let env : Env := ⟨0, Vector.replicate 16 0, fun _ => none, fun _ => true, true, true⟩
    ∃ s' reply, run Server.clientStep (.init []) (ClientAction.ofDatagram env ⟨1, 1⟩ buffer 36)
        = some s' ∧
      s'.clientThread = .receiving ∧
      s'.outbox = (Server.init []).outbox ++ (reply : Option Reply).toList.map (⟨1, 1⟩, ·) ∧
      Acknowledges env buffer 36 (Server.init []).toTables s'.toTables reply :=
  acknowledged_iff_entered _ _ rfl (by decide +kernel) (by decide) rfl rfl

end Pcd
