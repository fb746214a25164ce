import PcdProject.Network.PyAgreement
import PcdProject.Server.JobLedger

/-!
# A server with Python clients

What becomes of the packets of the Python client in runs of the server. Its job requests have the
type code of heartbeats, its upload requests that of an answer, and its download requests that of an
upload request which they are too short for: nothing that these clients send makes the server do
any work, as long as no name of a file contains a zero.
-/

namespace Pcd

open CLayout Transition

/-! ### A server without work -/

/-- The switch creates no job and queues no transfer for the datagram of `n` bytes. -/
def AsksNothing (buffer : Bytes) (n : ℕ) : Prop :=
  ∀ req, readRequest buffer n = some req →
    (∃ messageId, req = .clientId messageId) ∨ ∃ clientId, req = .heartbeat clientId

/-- A datagram that is received in the step asks for no work. -/
def Action.AsksNothing : Action → Prop
  | .client (.receive buffer n _ _ _) => Pcd.AsksNothing buffer n
  | _                                 => True

/-- All tables but that of the clients are empty, no thread does anything with a job or a file, and
what was sent are ids and notices. -/
structure Idle (s : Server) : Prop where
  client     : s.clientThread = .receiving
  jobs       : s.pendingJobs = []
  uploads    : s.uploadQueue = []
  downloads  : s.downloadQueue = []
  workers    : ∀ w ∈ s.workers, w = .waiting
  processing : s.processing.idle = true
  download   : s.downloadThread = .accepting ∨ ∃ conn, s.downloadThread = .waiting conn
  sent       : ∀ p ∈ s.outbox, (∃ messageId id, p.2 = .clientIdAck messageId id) ∨ p.2 = .kicked

namespace Idle

variable {s t : Server} {a : Action}

lemma init (dir : Bytes) : Idle (Server.init dir) where
  client := rfl
  jobs := rfl
  uploads := rfl
  downloads := rfl
  workers := by simp [Server.init]
  processing := rfl
  download := .inl rfl
  sent := by simp [Server.init]

lemma clientStep {a : ClientAction} (hs : Idle s) (ha : (Action.client a).AsksNothing)
    (h : s.clientStep a = some t) : Idle t := by
  have hpc' := hs.client
  cases ClientBranch.of_clientStep h with
  | receive buffer n src now newId hpc hsize =>
    cases hread : readRequest buffer n with
    | none => exact hs
    | some req =>
      rcases ha req hread with ⟨messageId, rfl⟩ | ⟨clientId, rfl⟩
      · refine { hs with sent := List.forall_mem_append.mpr ⟨hs.sent, ?_⟩ }
        exact List.forall_mem_singleton.mpr (.inl ⟨messageId, newId, rfl⟩)
      · exact { hs with }
  | isDirectory _ _ _ _ hpc | notDirectory _ _ _ _ hpc | missing _ _ _ hpc | mkdir _ _ _ hpc
  | mkdirFail _ _ _ hpc | append _ _ _ _ hpc | appendFail _ _ _ _ hpc | jobReply _ _ _ hpc
  | jobReplyFail _ _ _ hpc | enqueueUpload _ _ _ _ hpc | uploadReply _ _ _ _ hpc
  | downloadStat _ _ _ _ hpc | downloadMissing _ _ _ hpc | downloadChmod _ _ _ _ _ hpc
  | downloadReply _ _ _ _ _ hpc | enqueueDownload _ _ _ _ hpc =>
    rw [hpc'] at hpc
    cases hpc

/-- A worker finds the queue empty. -/
lemma workerStep {w : ℕ} {a : WorkerAction} (hs : Idle s) (h : s.workerStep w a = some t) :
    Idle t := by
  have hwaiting : ∀ pc, s.workers[w]? = some pc → pc = .waiting := by
    intro pc hpc
    exact hs.workers pc (List.mem_of_getElem? hpc)
  cases WorkerRule.of_workerStep h with
  | pick job queue hpc hqueue =>
    rw [hs.uploads] at hqueue
    cases hqueue
  | lookup _ _ hpc | accept _ _ _ hpc | acceptFail _ hpc | openFile _ _ hpc | openFail _ _ hpc
  | recv _ _ _ _ _ hpc | shortWrite _ _ _ _ _ _ hpc | hangup _ _ _ _ hpc | close _ _ _ hpc
  | update _ _ _ _ hpc | finish _ hpc => cases hwaiting _ hpc

/-- A pass finds no job. -/
lemma processingStep {a : ProcessingAction} (hs : Idle s) (h : s.processingStep a = some t) :
    Idle t := by
  have hidle := hs.processing
  cases ProcessingRule.of_processingStep h with
  | ready dir i job hpc hjob =>
    rw [hs.jobs] at hjob
    cases hjob
  | getcwdFail ok hpc => exact hs
  | getcwd hpc | lock dir hpc | unlock dir i hpc | notReady dir i hpc | chdirBack dir i ok hpc =>
    exact { hs with processing := rfl }
  | chdir _ _ _ hpc | chdirFail _ _ hpc | system _ _ _ _ hpc | malloc _ _ _ hpc
  | mallocFail _ _ _ hpc | sendto _ _ _ _ hpc | remove _ _ hpc =>
    rw [hpc] at hidle
    cases hidle

lemma downloadStep {a : DownloadAction} (hs : Idle s) (h : s.downloadStep a = some t) :
    Idle t := by
  have hdownload := hs.download
  cases DownloadRule.of_downloadStep h with
  | accept conn backlog => exact { hs with download := .inr ⟨conn, rfl⟩ }
  | acceptFail => exact hs
  | pop conn job queue hpc hqueue =>
    rw [hs.downloads] at hqueue
    cases hqueue
  | valid _ _ hpc | invalid _ _ hpc | openFile _ _ hpc | openFail _ _ hpc | finish _ _ hpc =>
    rw [hpc] at hdownload
    rcases hdownload with hnone | ⟨conn, hnone⟩ <;> cases hnone

lemma step (hs : Idle s) (ha : a.AsksNothing) (h : s.step a = some t) : Idle t := by
  cases SystemRule.of_step h with
  | client a _ _ => exact hs.clientStep ha h
  | worker w a _ _ => exact hs.workerStep h
  | processing a _ _ => exact hs.processingStep h
  | download a _ _ => exact hs.downloadStep h
  | kick id =>
    refine { hs with sent := List.forall_mem_append.mpr ⟨hs.sent, ?_⟩ }
    intro p hp
    obtain ⟨c, -, rfl⟩ := List.mem_map.mp hp
    exact .inr rfl
  | sweep | limit | limitIgnored | connectUpload | connectDownload => exact { hs with }

/-- A server that is asked for no work does none. -/
lemma of_run {dir : Bytes} {as : List Action} (has : ∀ a ∈ as, a.AsksNothing)
    (h : run Server.step (.init dir) as = some s) : Idle s := by
  have hC : Along Server.step (fun _ a => a.AsksNothing) (.init dir) as := by
    intro pre a u hpre _
    exact has a (hpre.subset (List.mem_append_right _ (List.mem_singleton_self a)))
  exact along_invariant (I := Idle) (fun _ _ _ hs ha h => hs.step ha h) (init dir) hC h

end Idle

/-! ### The packets of the Python client -/

/-- What `VideoClient` sends. `struct.pack` bounds the lengths. -/
inductive PyClient.Packet where
  | clientIdReq (msgId : UInt32)
  | heartbeat (clientId : ClientId)
  | createJob (msgId : UInt32) (clientId : ClientId) (jobId : UInt32) (fileCount : UInt8)
      (cmd : Bytes) (hlen : cmd.length < 2 ^ 16)
  | uploadRequest (msgId : UInt32) (clientId : ClientId) (jobId : UInt32) (fileSize : UInt64)
      (filename : Bytes) (hlen : filename.length < 2 ^ 8)
  | downloadRequest (msgId : UInt32) (clientId : ClientId) (jobId : UInt32) (filename : Bytes)
      (hlen : filename.length < 2 ^ 8)

/-- `fname_bytes` of `send_download_request`. Nothing checks what the user enters. -/
def PyClient.Packet.requestedName : PyClient.Packet → Bytes
  | .downloadRequest _ _ _ filename _ => filename
  | _                                 => []

def PyClient.Packet.bytes : PyClient.Packet → Bytes
  | .clientIdReq msgId => PyClient.clientIdReq msgId
  | .heartbeat clientId => PyClient.heartbeat clientId
  | .createJob msgId clientId jobId fileCount cmd _ =>
    PyClient.createJob msgId clientId jobId fileCount cmd
  | .uploadRequest msgId clientId jobId fileSize filename _ =>
    PyClient.uploadRequest msgId clientId jobId fileSize filename
  | .downloadRequest msgId clientId jobId filename _ =>
    PyClient.downloadRequest msgId clientId jobId filename

section Packets

variable {buffer : Bytes} {n : ℕ}

/-- Types 1 and 3 are those of a `CLIENT_ID_REQ` and of a heartbeat, type 5 is none of a request. -/
lemma asksNothing_of_type {type : MessageType} (htype : buffer.headD 0 = type.code)
    (h : type = .clientIdReq ∨ type = .heartbeat ∨ type = .jobAck) : AsksNothing buffer n := by
  have other : ∀ type' : MessageType, MessageType.ofCode (buffer.headD 0) = some type' →
      type' = .jobReq ∨ type' = .uploadReq ∨ type' = .downloadReq → False := by
    intro type' hcode htype'
    have heq := (ofCode_eq_some hcode).symm.trans htype
    rcases h with rfl | rfl | rfl <;> rcases htype' with rfl | rfl | rfl <;>
      exact absurd heq (by decide)
  intro req hread
  cases RequestRule.of_readRequest hread with
  | clientId => exact .inl ⟨_, rfl⟩
  | heartbeat => exact .inr ⟨_, rfl⟩
  | job hcode => exact (other _ hcode (.inl rfl)).elim
  | upload hcode => exact (other _ hcode (.inr (.inl rfl))).elim
  | download hcode => exact (other _ hcode (.inr (.inr rfl))).elim

/-- Two bytes of which the second is not zero. -/
lemma le_leNat_pair {x y : UInt8} (hy : y ≠ 0) :
    256 ≤ (UInt16.ofNat (leNat [x, y])).toNat := by
  have hx : x.toNat < 256 := x.toNat_lt
  have hy' : y.toNat < 256 := y.toNat_lt
  have hpos : y.toNat ≠ 0 := fun hzero => hy (UInt8.toNat.inj hzero)
  have hvalue : leNat [x, y] = x.toNat + 256 * y.toNat := by simp [leNat]
  rw [hvalue, UInt16.toNat_ofNat', Nat.mod_eq_of_lt (by omega)]
  omega

/-- The length of the name is read out of the name, which contains no zero. -/
lemma nameLen_downloadRequest {head filename : Bytes} (hhead : head.length = 26)
    (hname : 22 ≤ filename.length) (hzero : 0 ∉ filename) (leftOver : Bytes) :
    256 ≤ (UploadRequest.read (head ++ filename ++ leftOver)).nameLen.toNat := by
  obtain ⟨first, x, y, rest, hfirst, rfl⟩ : ∃ first x y rest, first.length = 14 ∧
      filename = first ++ x :: y :: rest := by
    refine ⟨filename.take 14, filename[14], filename[15], filename.drop 16, by simp; omega, ?_⟩
    simp
  have hslice : slice UploadRequest.layout 5 (head ++ (first ++ x :: y :: rest) ++ leftOver)
      = [x, y] := by
    have hoffset : head ++ (first ++ x :: y :: rest) ++ leftOver
        = (head ++ first) ++ x :: y :: (rest ++ leftOver) := by simp
    have hlength : (head ++ first).length = 40 := by rw [List.length_append, hhead, hfirst]
    rw [hoffset]
    show ((head ++ first ++ x :: y :: (rest ++ leftOver)).drop 40).take 2 = [x, y]
    rw [List.drop_left' hlength]
    rfl
  have hy : y ≠ 0 := by
    rintro rfl
    simp at hzero
  show 256 ≤ (readU16 UploadRequest.layout 5 _).toNat
  rw [readU16, hslice]
  exact le_leNat_pair hy

/-- Type 6 is that of an upload request, whose struct alone is longer than most of the packets. -/
lemma asksNothing_downloadRequest (msgId : UInt32) (clientId : ClientId) (jobId : UInt32)
    {filename : Bytes} (hlen : filename.length < 2 ^ 8) (hzero : 0 ∉ filename) (leftOver : Bytes) :
    AsksNothing (PyClient.downloadRequest msgId clientId jobId filename ++ leftOver)
      (PyClient.downloadRequest msgId clientId jobId filename).length := by
  let head : Bytes := [6] ++ PyClient.beBytes 4 msgId.toNat ++ clientId.toList
    ++ PyClient.beBytes 4 jobId.toNat ++ PyClient.beBytes 1 filename.length
  have hd : PyClient.downloadRequest msgId clientId jobId filename
      = head ++ filename := rfl
  have hhead : head.length = 26 := by simp [head, PyClient.beBytes, length_leBytes]
  have other : ∀ type : MessageType,
      MessageType.ofCode ((head ++ filename ++ leftOver).headD 0) = some type →
        type = .uploadReq := by
    intro type hcode
    have htype : MessageType.ofCode ((head ++ filename ++ leftOver).headD 0)
        = some .uploadReq := rfl
    exact Option.some.inj (hcode.symm.trans htype)
  rw [hd]
  intro req hread
  cases RequestRule.of_readRequest hread with
  | clientId => exact .inl ⟨_, rfl⟩
  | heartbeat => exact .inr ⟨_, rfl⟩
  | job hcode => cases other _ hcode
  | download hcode => cases other _ hcode
  | upload hcode name hname =>
    unfold trailingString at hname
    split_ifs at hname with hshort
    rw [List.length_append, hhead] at hshort
    have hsize : sizeof UploadRequest.layout = 48 := rfl
    have hlong := nameLen_downloadRequest hhead (by omega) hzero leftOver
    omega

/-- The first byte of a packet is received. -/
lemma headD_of_prefix {c : UInt8} {d : Bytes} (h : (c :: d).take BUFFER_SIZE <+: buffer) :
    buffer.headD 0 = c := by
  obtain ⟨leftOver, rfl⟩ := h
  rfl

lemma asksNothing_packet (p : PyClient.Packet) (hzero : 0 ∉ p.requestedName)
    (h : p.bytes.take BUFFER_SIZE <+: buffer) :
    AsksNothing buffer (min p.bytes.length BUFFER_SIZE) := by
  cases p with
  | clientIdReq msgId =>
    have htype : buffer.headD 0 = MessageType.clientIdReq.code := headD_of_prefix h
    exact asksNothing_of_type htype (.inl rfl)
  | heartbeat clientId =>
    have htype : buffer.headD 0 = MessageType.heartbeat.code := headD_of_prefix h
    exact asksNothing_of_type htype (.inr (.inl rfl))
  | createJob msgId clientId jobId fileCount cmd hlen =>
    have htype : buffer.headD 0 = MessageType.heartbeat.code := headD_of_prefix h
    exact asksNothing_of_type htype (.inr (.inl rfl))
  | uploadRequest msgId clientId jobId fileSize filename hlen =>
    have htype : buffer.headD 0 = MessageType.jobAck.code := headD_of_prefix h
    exact asksNothing_of_type htype (.inr (.inr rfl))
  | downloadRequest msgId clientId jobId filename hlen =>
    have hshort : (PyClient.downloadRequest msgId clientId jobId filename).length
        ≤ BUFFER_SIZE := by
      simp only [PyClient.downloadRequest, PyClient.beBytes, List.length_append,
        List.length_reverse, length_leBytes, Vector.length_toList, List.length_singleton,
        BUFFER_SIZE]
      omega
    simp only [PyClient.Packet.bytes] at h ⊢
    rw [List.take_of_length_le hshort] at h
    obtain ⟨leftOver, rfl⟩ := h
    rw [min_eq_left hshort]
    exact asksNothing_downloadRequest msgId clientId jobId hlen hzero leftOver

end Packets

/-- A datagram that is received in the step is such a packet of a Python client, whatever is left
over behind it in the receive buffer. -/
def Action.FromPython (P : PyClient.Packet → Prop) : Action → Prop
  | .client (.receive buffer n _ _ _) =>
    ∃ p, P p ∧ p.bytes.take BUFFER_SIZE <+: buffer ∧ n = min p.bytes.length BUFFER_SIZE
  | _ => True

lemma Action.FromPython.asksNothing {a : Action}
    (h : a.FromPython fun p => 0 ∉ p.requestedName) : a.AsksNothing := by
  cases a with
  | client a =>
    cases a with
    | receive buffer n src now newId =>
      obtain ⟨p, hzero, hbuffer, rfl⟩ := h
      exact asksNothing_packet p hzero hbuffer
    | _ => trivial
  | _ => trivial

/-- In every run of the server with Python clients only, any number of them, in which no name in a
download request contains a zero, no job is created, no transfer is queued, no thread works on a job
or a file, and all that is sent are ids and notices of kicks. -/
theorem python_idle {dir : Bytes} {as : List Action} {s : Server}
    (h : run Server.step (.init dir) as = some s)
    (has : ∀ a ∈ as, a.FromPython fun p => 0 ∉ p.requestedName) : Idle s :=
  Idle.of_run (fun a ha => (has a ha).asksNothing) h

/-- A client registers, creates a job, and asks for an upload and for a download. -/
def pythonRun : List Action :=
  let id : ClientId := Vector.replicate 16 1
  let packets : List Bytes := [PyClient.clientIdReq 1, PyClient.createJob 2 id 7 1 (cstr "true"),
    PyClient.uploadRequest 3 id 7 100 (cstr "a"), PyClient.downloadRequest 4 id 7 (cstr "b")]
  packets.map fun d => .client (.receive (fillBuffer d 0) d.length ⟨1, 1⟩ 0 id)

theorem python_idle_pythonRun :
    ∃ s, run Server.step (.init []) pythonRun = some s ∧ Idle s := by
  obtain ⟨s, hs⟩ := Option.isSome_iff_exists.mp
    (show (run Server.step (.init []) pythonRun).isSome = true by decide +kernel)
  refine ⟨s, hs, python_idle hs ?_⟩
  intro a ha
  obtain ⟨d, hd, rfl⟩ := List.mem_map.mp ha
  have packet : ∀ p : PyClient.Packet, p.bytes.length ≤ BUFFER_SIZE → 0 ∉ p.requestedName →
      Action.FromPython (fun p => 0 ∉ p.requestedName) (.client (.receive (fillBuffer p.bytes 0)
        p.bytes.length ⟨1, 1⟩ 0 (Vector.replicate 16 1))) := by
    intro p hp hzero
    refine ⟨p, hzero, ?_, (min_eq_left hp).symm⟩
    rw [List.take_of_length_le hp]
    exact List.prefix_append _ _
  simp only [List.mem_cons, List.not_mem_nil, or_false] at hd
  rcases hd with rfl | rfl | rfl | rfl
  · exact packet (.clientIdReq 1) (by decide) (by decide)
  · exact packet (.createJob 2 _ 7 1 (cstr "true") (by decide)) (by decide +kernel) (by decide)
  · exact packet (.uploadRequest 3 _ 7 100 (cstr "a") (by decide)) (by decide +kernel) (by decide)
  · exact packet (.downloadRequest 4 _ 7 (cstr "b") (by decide)) (by decide +kernel) (by decide)

/-- A name of 23 zeros makes the packet as long as an upload request without a name. -/
example :
    let d := PyClient.downloadRequest 4 (Vector.replicate 16 1) 7 (List.replicate 23 0)
    ∃ req, readRequest (fillBuffer d 0) d.length = some (.upload req []) :=
  ⟨_, rfl⟩

end Pcd
