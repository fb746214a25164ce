import PcdProject.Client.PyClient
import PcdProject.Server.Decoding

/-!
# The Python client and the server

The two codecs of the ten message kinds side by side. The client packs in network byte order,
without padding and with type codes of its own, the server uses its structs as they lie in memory:
heartbeats, which have neither integers nor padding, are the only messages that cross over.
-/

namespace Pcd

open CLayout

/-- A message that one side sends, with the values that it puts in. The formats of `struct.pack`
bound the lengths. -/
inductive UdpMessage where
  | clientIdReq (messageId : UInt32)
  | clientIdAck (messageId : UInt32) (clientId : ClientId)
  | heartbeat (clientId : ClientId)
  | jobReq (messageId : UInt32) (clientId : ClientId) (jobId : UInt32) (fileCount : UInt8)
      (cmd : Bytes) (hlen : cmd.length < 2 ^ 16)
  | jobAck (messageId jobId : UInt32) (status : StatusCode) (msg : String)
  | uploadReq (messageId : UInt32) (clientId : ClientId) (jobId : UInt32) (fileSize : UInt64)
      (filename : Bytes) (hlen : filename.length < 2 ^ 8)
  | uploadAck (messageId : UInt32) (status : StatusCode) (ipAddress : UInt32) (tcpPort : UInt16)
      (filename : Bytes)
  | jobResult (jobId : UInt32) (status : StatusCode) (msg : String)
  | downloadReq (messageId : UInt32) (clientId : ClientId) (jobId : UInt32) (filename : Bytes)
      (hlen : filename.length < 2 ^ 8)
  | downloadAck (messageId : UInt32) (status : StatusCode) (fileSize : UInt64) (filename : Bytes)

/-- The switch reads the request from the datagram `d`, whatever is left over behind it in the
receive buffer. -/
def Decodes (d : Bytes) (req : Request) : Prop :=
  ∀ buffer, buffer.length = BUFFER_SIZE → d.take BUFFER_SIZE <+: buffer →
    readRequest buffer (min d.length BUFFER_SIZE) = some req

/-- The receiver reads the values that the sender put in, whatever the sender left unset. The
address and the port are in network byte order already when the server puts them in. -/
def UdpMessage.Agrees : UdpMessage → Prop
  | .clientIdReq messageId => Decodes (PyClient.clientIdReq messageId) (.clientId messageId)
  | .heartbeat clientId => Decodes (PyClient.heartbeat clientId) (.heartbeat clientId)
  | .jobReq messageId clientId jobId fileCount cmd _ =>
    Decodes (PyClient.createJob messageId clientId jobId fileCount cmd)
      (.job ⟨messageId, clientId, jobId, fileCount, UInt16.ofNat cmd.length⟩ cmd)
  | .uploadReq messageId clientId jobId fileSize filename _ =>
    Decodes (PyClient.uploadRequest messageId clientId jobId fileSize filename)
      (.upload ⟨messageId, clientId, jobId, fileSize, UInt16.ofNat filename.length⟩ filename)
  | .downloadReq messageId clientId jobId filename _ =>
    Decodes (PyClient.downloadRequest messageId clientId jobId filename)
      (.download ⟨messageId, clientId, jobId, UInt16.ofNat filename.length⟩ filename)
  | .clientIdAck messageId clientId =>
    ∀ unset, PyClient.unpackClientIdAck (Reply.datagram unset (.clientIdAck messageId clientId))
      = some ⟨messageId.toNat, clientId.toList⟩
  | .jobAck messageId jobId status msg =>
    ∀ unset, PyClient.unpackJobAck (Reply.datagram unset (.jobAck messageId jobId status msg))
      = some ⟨MessageType.jobAck.code, messageId.toNat, jobId.toNat, status.code, cstr msg⟩
  | .uploadAck messageId status ipAddress tcpPort filename =>
    ∀ unset, PyClient.unpackTransferAck (Reply.datagram unset
        (.uploadAck messageId (UInt16.ofNat filename.length) status ipAddress tcpPort filename))
      = some ⟨MessageType.uploadAck.code, messageId.toNat, filename, status.code,
          PyClient.beNat (leBytes 4 ipAddress.toNat), PyClient.beNat (leBytes 2 tcpPort.toNat)⟩
  | .downloadAck messageId status fileSize filename =>
    ∀ unset, ∃ ip port, PyClient.unpackTransferAck (Reply.datagram unset
        (.downloadAck messageId status fileSize (UInt16.ofNat filename.length) filename))
      = some ⟨MessageType.downloadAck.code, messageId.toNat, filename, status.code, ip, port⟩
  | .jobResult jobId status msg =>
    ∀ unset, PyClient.unpackJobResult (Reply.datagram unset (.jobResult jobId status msg))
      = some ⟨jobId.toNat, status.code, cstr msg⟩

/-! ### Requests -/

section Requests

variable {d : Bytes} {req : Request}

lemma Decodes.read_fillBuffer (h : Decodes d req) (hd : d.length ≤ BUFFER_SIZE) (x : UInt8) :
    readRequest (fillBuffer d x) d.length = some req := by
  have hread := h (fillBuffer d x) (length_fillBuffer hd x) <|
    (List.take_of_length_le hd).symm ▸ List.prefix_append _ _
  rwa [min_eq_left hd] at hread

/-- The case of the switch is chosen by the first byte. -/
lemma Decodes.headD (h : Decodes d req) (hd : 0 < d.length) :
    ∃ n buffer, buffer.headD 0 = d.headD 0 ∧ 1 ≤ n ∧ readRequest buffer n = some req := by
  refine ⟨min d.length BUFFER_SIZE, fillBuffer (d.take BUFFER_SIZE) 0, ?_, ?_, ?_⟩
  · cases d with
    | nil => simp at hd
    | cons c d => rfl
  · unfold BUFFER_SIZE
    omega
  · apply h
    · exact length_fillBuffer (List.length_take_le _ _) 0
    · exact List.prefix_append _ _

lemma not_decodes_clientIdReq (messageId : UInt32) :
    ¬ Decodes (PyClient.clientIdReq messageId) (.clientId messageId) := by
  intro h
  have hlen : (PyClient.clientIdReq messageId).length = 5 := rfl
  have hmax : (PyClient.clientIdReq messageId).length ≤ BUFFER_SIZE := by rw [hlen]; decide
  have hread : ∀ x, readU32 ClientIdRequest.layout 1
      (fillBuffer (PyClient.clientIdReq messageId) x) = messageId := by
    intro x
    have hx := h.read_fillBuffer hmax x
    rw [readRequest_clientId (by rw [hlen]; decide) rfl] at hx
    exact Request.clientId.inj (Option.some.inj hx)
  have hshort : (PyClient.clientIdReq messageId).length < sizeof ClientIdRequest.layout := by
    rw [hlen]
    decide
  exact messageId_fillBuffer_ne hmax hshort ((hread 0).trans (hread 1).symm)

lemma decodes_heartbeat (clientId : ClientId) :
    Decodes (PyClient.heartbeat clientId) (.heartbeat clientId) := by
  have hdatagram : PyClient.heartbeat clientId = heartbeatDatagram clientId := rfl
  have hlen := length_heartbeatDatagram clientId
  have hmax : 17 ≤ BUFFER_SIZE := by decide
  intro buffer _ hprefix
  rw [hdatagram, List.take_of_length_le (hlen.le.trans hmax)] at hprefix
  obtain ⟨leftOver, rfl⟩ := hprefix
  rw [hdatagram, hlen, min_eq_left hmax]
  exact readRequest_heartbeatDatagram clientId leftOver

/-- The type code of a job request is that of a heartbeat. -/
lemma not_decodes_createJob (msgId : UInt32) (clientId : ClientId) (jobId : UInt32)
    (fileCount : UInt8) (cmd name : Bytes) (req : JobRequest) :
    ¬ Decodes (PyClient.createJob msgId clientId jobId fileCount cmd) (.job req name) := by
  intro h
  obtain ⟨n, buffer, hhead, hn, hread⟩ := h.headD (Nat.zero_lt_succ _)
  rw [readRequest_heartbeat hn hhead] at hread
  cases hread

/-- The type code of an upload request is that of a `JOB_ACK`. -/
lemma not_decodes_uploadRequest (msgId : UInt32) (clientId : ClientId) (jobId : UInt32)
    (fileSize : UInt64) (filename : Bytes) (req : Request) :
    ¬ Decodes (PyClient.uploadRequest msgId clientId jobId fileSize filename) req := by
  intro h
  obtain ⟨n, buffer, hhead, hn, hread⟩ := h.headD (Nat.zero_lt_succ _)
  have htype : MessageType.ofCode (buffer.headD 0) = some .jobAck := by
    rw [hhead]
    rfl
  rw [readRequest, if_neg (by omega), htype] at hread
  cases hread

/-- The type code of a download request is that of an `UPLOAD_REQ`. -/
lemma not_decodes_downloadRequest (msgId : UInt32) (clientId : ClientId) (jobId : UInt32)
    (filename name : Bytes) (req : DownloadRequest) :
    ¬ Decodes (PyClient.downloadRequest msgId clientId jobId filename) (.download req name) := by
  intro h
  obtain ⟨n, buffer, hhead, hn, hread⟩ := h.headD (Nat.zero_lt_succ _)
  have htype : MessageType.ofCode (buffer.headD 0) = some .uploadReq := by
    rw [hhead]
    rfl
  rw [readRequest, if_neg (by omega), htype] at hread
  obtain ⟨_, -, hname⟩ := Option.map_eq_some_iff.mp hread
  cases hname

end Requests

/-! ### Replies -/

section Replies

variable {d : Bytes}

/-- The client reads the message id where the struct has its padding and one byte of it. -/
lemma slice_msgId (pad c : UInt8) (m : ℕ) (fs : List Field) (vs : List Bytes) (rest : Bytes) :
    PyClient.slice ((pack pad (u8 :: u32 :: fs) ([c] :: leBytes 4 m :: vs) ++ rest).take
      PyClient.RECV_SIZE) 1 5 = [pad, pad, pad, UInt8.ofNat (m % 256)] := by
  simp [PyClient.slice, pack, packFrom, alignUp, u8, u32, leBytes, List.replicate,
    PyClient.RECV_SIZE]

lemma msgId_of_unpackClientIdAck {ack : PyClient.ClientIdAck}
    (h : PyClient.unpackClientIdAck d = some ack) :
    PyClient.beNat (PyClient.slice (d.take PyClient.RECV_SIZE) 1 5) = ack.msgId := by
  simp only [PyClient.unpackClientIdAck] at h
  split_ifs at h
  cases h
  rfl

lemma msgId_of_unpackJobAck {ack : PyClient.JobAck} (h : PyClient.unpackJobAck d = some ack) :
    PyClient.beNat (PyClient.slice (d.take PyClient.RECV_SIZE) 1 5) = ack.msgId := by
  simp only [PyClient.unpackJobAck] at h
  split_ifs at h
  cases h
  rfl

lemma msgId_of_unpackTransferAck {ack : PyClient.TransferAck}
    (h : PyClient.unpackTransferAck d = some ack) :
    PyClient.beNat (PyClient.slice (d.take PyClient.RECV_SIZE) 1 5) = ack.msgId := by
  simp only [PyClient.unpackTransferAck] at h
  split_ifs at h
  cases h
  rfl

/-- Two paddings are read as two message ids. -/
lemma not_msgId_eq {f : Unset → Bytes} {m m' : ℕ} {c : UInt8} {fs : List Field}
    {vs : List Bytes} {rest : Bytes}
    (hf : ∀ unset, f unset = pack unset.pad (u8 :: u32 :: fs) ([c] :: leBytes 4 m :: vs) ++ rest)
    (h : ∀ unset,
      PyClient.beNat (PyClient.slice ((f unset).take PyClient.RECV_SIZE) 1 5) = m') : False := by
  have hread : ∀ pad, PyClient.beNat [pad, pad, pad, UInt8.ofNat (m % 256)] = m' := by
    intro pad
    rw [← h ⟨pad, 0, Vector.replicate 16 0⟩, hf, slice_msgId]
  have hzero := hread 0
  have hone := hread 1
  simp only [PyClient.beNat, List.reverse_cons, List.reverse_nil, List.nil_append,
    List.cons_append, leNat] at hzero hone
  have h0 : (0 : UInt8).toNat = 0 := rfl
  have h1 : (1 : UInt8).toNat = 1 := rfl
  omega

/-- The server sends `JOB_RESULT` with a type code that the client ignores. -/
lemma unpackJobResult_eq_none (unset : Unset) (jobId : UInt32) (status : StatusCode)
    (msg : String) :
    PyClient.unpackJobResult (Reply.datagram unset (.jobResult jobId status msg)) = none := by
  have htype : ((Reply.datagram unset (.jobResult jobId status msg)).take
      PyClient.RECV_SIZE).headD 0 = 8 := rfl
  simp only [PyClient.unpackJobResult]
  rw [htype, if_neg]
  rintro ⟨h, -⟩
  revert h
  decide

end Replies

/-! ### Main result -/

/-- The messages on which client and server agree are the heartbeats. -/
theorem agrees_iff_heartbeat (m : UdpMessage) : m.Agrees ↔ ∃ clientId, m = .heartbeat clientId := by
  constructor
  · intro h
    cases m with
    | heartbeat clientId => exact ⟨clientId, rfl⟩
    | clientIdReq messageId => exact absurd h (not_decodes_clientIdReq messageId)
    | jobReq messageId clientId jobId fileCount cmd =>
      exact absurd h (not_decodes_createJob _ _ _ _ _ _ _)
    | uploadReq messageId clientId jobId fileSize filename =>
      exact absurd h (not_decodes_uploadRequest _ _ _ _ _ _)
    | downloadReq messageId clientId jobId filename =>
      exact absurd h (not_decodes_downloadRequest _ _ _ _ _ _)
    | clientIdAck messageId clientId =>
      exact (not_msgId_eq (fun _ => (List.append_nil _).symm) fun unset =>
        msgId_of_unpackClientIdAck (h unset)).elim
    | jobAck messageId jobId status msg =>
      exact (not_msgId_eq (fun _ => rfl) fun unset => msgId_of_unpackJobAck (h unset)).elim
    | uploadAck messageId status ipAddress tcpPort filename =>
      exact (not_msgId_eq (fun _ => rfl) fun unset => msgId_of_unpackTransferAck (h unset)).elim
    | downloadAck messageId status fileSize filename =>
      have hid : ∀ unset, PyClient.beNat (PyClient.slice ((Reply.datagram unset
          (.downloadAck messageId status fileSize (UInt16.ofNat filename.length) filename)).take
          PyClient.RECV_SIZE) 1 5) = messageId.toNat := by
        intro unset
        obtain ⟨ip, port, hack⟩ := h unset
        exact msgId_of_unpackTransferAck hack
      exact (not_msgId_eq (fun _ => rfl) hid).elim
    | jobResult jobId status msg =>
      have hnone := h ⟨0, 0, Vector.replicate 16 0⟩
      rw [unpackJobResult_eq_none] at hnone
      cases hnone
  · rintro ⟨clientId, rfl⟩
    exact decodes_heartbeat clientId

/-- The server reads a job request as a heartbeat. -/
theorem not_agrees_jobReq : ¬ ∀ m : UdpMessage, m.Agrees := by
  intro h
  exact not_decodes_createJob _ _ _ _ _ _ _
    (h (.jobReq 1 (Vector.replicate 16 1) 7 1 (cstr "true") (by decide)))

end Pcd
