import Mathlib.Data.List.Lookmap
import PcdProject.Core.StableQueue
import PcdProject.Server.State

/-!
# The handling of a datagram

`handle_udp_message` with the functions it calls: the switch over the message types, `create_job`,
`handle_upload_request` and `handle_download_request`. The receive buffer is reused, so that the
bytes behind the datagram are left over from earlier ones.
-/

namespace Pcd

open CLayout

/-! ### The switch -/

def MessageType.ofCode (code : UInt8) : Option MessageType :=
  [.clientIdReq, .clientIdAck, .heartbeat, .jobReq, .jobAck, .uploadReq, .uploadAck, .jobResult,
    .downloadReq, .downloadAck].find? fun t => t.code = code

/-- A datagram as the case of the switch that handles it reads it. -/
inductive Request where
  | clientId (messageId : UInt32)
  | heartbeat (clientId : ClientId)
  | job (req : JobRequest) (cmd : Bytes)
  | upload (req : UploadRequest) (filename : Bytes)
  | download (req : DownloadRequest) (filename : Bytes)

/-- The string of length `len` behind a struct of the given size, `none` if the datagram of `n`
bytes is too short for it. A zero is stored behind the string first; for `size + len = 2048` the
store goes past the buffer, and so does the end of the string. -/
def trailingString (buffer : Bytes) (n size len : ℕ) : Option Bytes :=
  if n < size + len then none
  else some (((buffer.set (size + len) 0).drop size).takeWhile (· ≠ 0))

def readRequest (buffer : Bytes) (n : ℕ) : Option Request :=
  if n < 1 then none
  else
    match MessageType.ofCode (buffer.headD 0) with
    | some .clientIdReq => some (.clientId (readU32 ClientIdRequest.layout 1 buffer))
    | some .heartbeat   => some (.heartbeat (readClientId Heartbeat.layout 1 buffer))
    | some .jobReq      =>
      let req := JobRequest.read buffer
      (trailingString buffer n (sizeof JobRequest.layout) req.cmdLen.toNat).map (.job req)
    | some .uploadReq   =>
      let req := UploadRequest.read buffer
      (trailingString buffer n (sizeof UploadRequest.layout) req.nameLen.toNat).map (.upload req)
    | some .downloadReq =>
      let req := DownloadRequest.read buffer
      (trailingString buffer n (sizeof DownloadRequest.layout) req.nameLen.toNat).map
        (.download req)
    | _ => none

lemma ofCode_eq_some {code : UInt8} {type : MessageType} (h : MessageType.ofCode code = some type) :
    code = type.code := by
  have hfound := List.find?_some h
  exact (of_decide_eq_true hfound).symm

/-- What the cases of the switch read. -/
inductive RequestRule (buffer : Bytes) (n : ℕ) : Request → Prop where
  | clientId (htype : MessageType.ofCode (buffer.headD 0) = some .clientIdReq) :
      RequestRule buffer n (.clientId (readU32 ClientIdRequest.layout 1 buffer))
  | heartbeat (htype : MessageType.ofCode (buffer.headD 0) = some .heartbeat) :
      RequestRule buffer n (.heartbeat (readClientId Heartbeat.layout 1 buffer))
  | job (htype : MessageType.ofCode (buffer.headD 0) = some .jobReq) (cmd : Bytes)
      (hcmd : trailingString buffer n (sizeof JobRequest.layout)
        (JobRequest.read buffer).cmdLen.toNat = some cmd) :
      RequestRule buffer n (.job (.read buffer) cmd)
  | upload (htype : MessageType.ofCode (buffer.headD 0) = some .uploadReq) (filename : Bytes)
      (hname : trailingString buffer n (sizeof UploadRequest.layout)
        (UploadRequest.read buffer).nameLen.toNat = some filename) :
      RequestRule buffer n (.upload (.read buffer) filename)
  | download (htype : MessageType.ofCode (buffer.headD 0) = some .downloadReq) (filename : Bytes)
      (hname : trailingString buffer n (sizeof DownloadRequest.layout)
        (DownloadRequest.read buffer).nameLen.toNat = some filename) :
      RequestRule buffer n (.download (.read buffer) filename)

lemma RequestRule.of_readRequest {buffer : Bytes} {n : ℕ} {req : Request}
    (h : readRequest buffer n = some req) : RequestRule buffer n req := by
  unfold readRequest at h
  split_ifs at h
  split at h
  case h_1 htype =>
    cases h
    exact .clientId htype
  case h_2 htype =>
    cases h
    exact .heartbeat htype
  case h_3 htype =>
    obtain ⟨cmd, hcmd, rfl⟩ := Option.map_eq_some_iff.mp h
    exact .job htype cmd hcmd
  case h_4 htype =>
    obtain ⟨filename, hname, rfl⟩ := Option.map_eq_some_iff.mp h
    exact .upload htype filename hname
  case h_5 htype =>
    obtain ⟨filename, hname, rfl⟩ := Option.map_eq_some_iff.mp h
    exact .download htype filename hname
  case h_6 => cases h

/-! ### The table of the clients -/

def registerClient (clients : List ClientInfo) (id : ClientId) (addr : SockAddr) (now : ℤ) :
    List ClientInfo :=
  clients ++ [⟨id, addr, now⟩]

def updateHeartbeat (clients : List ClientInfo) (id : ClientId) (addr : SockAddr) (now : ℤ) :
    List ClientInfo :=
  clients.lookmap fun c => if c.clientId = id then some ⟨c.clientId, addr, now⟩ else none

lemma updateHeartbeat_cons (c : ClientInfo) (clients : List ClientInfo) (id : ClientId)
    (addr : SockAddr) (now : ℤ) :
    updateHeartbeat (c :: clients) id addr now =
      if c.clientId = id then ⟨c.clientId, addr, now⟩ :: clients
      else c :: updateHeartbeat clients id addr now := by
  unfold updateHeartbeat
  rw [List.lookmap_cons]
  split_ifs <;> rfl

def cleanupDeadClients (timeout now : ℤ) (clients : List ClientInfo) : List ClientInfo :=
  clients.filter fun c => now - c.lastHeartbeat < timeout

def kickClientById (id : ClientId) (clients : List ClientInfo) : List ClientInfo :=
  clients.eraseP fun c => c.clientId = id

/-- The notice that `kick_client_by_id` sends to the client that it removes. -/
def kickNotice (id : ClientId) (clients : List ClientInfo) : List (SockAddr × Reply) :=
  (clients.find? fun c => c.clientId = id).toList.map fun c => (c.addr, .kicked)

/-! ### The entries that requests append -/

/-- The entry that `create_job` appends. -/
def PendingJob.create (req : JobRequest) (cmd : Bytes) (src : SockAddr) (now : ℤ) : PendingJob where
  clientId := req.clientId
  clientAddr := src
  jobId := req.jobId
  command := bounded MAX_CMD_LEN cmd
  fileCount := req.fileCount.toNat
  filesReceived := 0
  lastUpdate := now

/-- The entry that `handle_upload_request` inserts. -/
def UploadJob.create (req : UploadRequest) (filename : Bytes) (now : ℤ) : UploadJob where
  clientId := req.clientId
  jobId := req.jobId
  filename := bounded MAX_FILENAME_LEN filename
  fileSize := req.fileSize
  arrivalTime := now
  priority := uploadPriority req.fileSize

/-- The entry that `handle_download_request` appends. -/
def DownloadJob.create (req : DownloadRequest) (filename : Bytes) (src : SockAddr) :
    DownloadJob where
  clientId := req.clientId
  jobId := req.jobId
  filename := bounded MAX_FILENAME_LEN filename
  messageId := req.messageId
  clientAddr := src

/-- The insertion into `upload_queue`, on the list of its jobs. -/
def enqueueUpload (queue : List UploadJob) (job : UploadJob) : List UploadJob :=
  StableQueue.insert UploadJob.priority job queue

/-! ### The replies -/

/-- Network byte order. -/
def htons (port : UInt16) : UInt16 := port <<< 8 ||| port >>> 8

def jobAck (req : JobRequest) (success : Bool) : Reply :=
  if success then .jobAck req.messageId req.jobId .ok "Job created successfully"
  else .jobAck req.messageId req.jobId .error "Failed to create job"

def uploadAck (req : UploadRequest) (filename : Bytes) (src : SockAddr) : Reply :=
  .uploadAck req.messageId (UInt16.ofNat filename.length) .ok src.ip (htons SERVER_PORT) filename

/-- `size` is `none` when `stat` failed. -/
def downloadAck (req : DownloadRequest) (filename : Bytes) (size : Option UInt64) : Reply :=
  match size with
  | some size => .downloadAck req.messageId .ok size (UInt16.ofNat filename.length) filename
  | none => .downloadAck req.messageId .fileNotFound 0 (UInt16.ofNat filename.length) filename

/-! ### Handling without interruption -/

/-- What a successful `stat` reports. -/
structure StatInfo where
  isDir : Bool
  size : UInt64
  deriving DecidableEq, Repr

/-- What the system decides while a datagram is handled: the clock, the id that
`generate_client_id` draws, the file system and the results of the checked allocations. -/
structure Env where
  now : ℤ
  newId : ClientId
  stat : Bytes → Option StatInfo
  mkdir : Bytes → Bool
  reallocOk : Bool
  mallocOk : Bool

def createJob (env : Env) (src : SockAddr) (req : JobRequest) (cmd : Bytes)
    (jobs : List PendingJob) : List PendingJob × Bool :=
  let dir := dirPath req.clientId req.jobId
  let dirOk :=
    match env.stat dir with
    | some info => info.isDir
    | none      => env.mkdir dir
  if dirOk && env.reallocOk then (jobs ++ [.create req cmd src env.now], true) else (jobs, false)

def handleUploadRequest (env : Env) (src : SockAddr) (req : UploadRequest) (filename : Bytes)
    (t : Tables) : Tables × Option Reply :=
  ({ t with uploadQueue := enqueueUpload t.uploadQueue (.create req filename env.now) },
    some (uploadAck req filename src))

def handleDownloadRequest (env : Env) (src : SockAddr) (req : DownloadRequest) (filename : Bytes)
    (t : Tables) : Tables × Option Reply :=
  match env.stat (downloadPath req.clientId req.jobId filename) with
  | none      => (t, some (downloadAck req filename none))
  | some info =>
    ({ t with downloadQueue := t.downloadQueue ++ [.create req filename src] },
      some (downloadAck req filename (some info.size)))

/-- The tables after a datagram of `n` bytes from `src`, and the reply to `src`. -/
def handleUdpMessage (env : Env) (src : SockAddr) (t : Tables) (buffer : Bytes) (n : ℕ) :
    Tables × Option Reply :=
  match readRequest buffer n with
  | none                        => (t, none)
  | some (.clientId messageId)  =>
    ({ t with clients := registerClient t.clients env.newId src env.now },
      some (.clientIdAck messageId env.newId))
  | some (.heartbeat id)        =>
    ({ t with clients := updateHeartbeat t.clients id src env.now }, none)
  | some (.job req cmd)         =>
    let (jobs, success) := createJob env src req cmd t.pendingJobs
    ({ t with pendingJobs := jobs }, if env.mallocOk then some (jobAck req success) else none)
  | some (.upload req name)     => handleUploadRequest env src req name t
  | some (.download req name)   => handleDownloadRequest env src req name t

/-! ### Left-over bytes -/

def BUFFER_SIZE : ℕ := 2048

/-- Whatever the bytes behind the datagram `d` in the receive buffer, it has the same effect. -/
def IgnoresLeftOver (d : Bytes) : Prop :=
  ∀ (env : Env) (src : SockAddr) (t : Tables) (b b' : Bytes),
    b.length = BUFFER_SIZE → b'.length = BUFFER_SIZE → d <+: b → d <+: b' →
    handleUdpMessage env src t b d.length = handleUdpMessage env src t b' d.length

section LeftOver

variable {n size len : ℕ} {b b' d : Bytes}

/-- Overwriting an element at which `takeWhile` stops cuts the list there. -/
lemma takeWhile_set {α : Type*} {p : α → Bool} {a : α} (ha : p a = false) (l : List α) (i : ℕ) :
    (l.set i a).takeWhile p = (l.take i).takeWhile p := by
  induction l generalizing i with
  | nil => simp
  | cons c l ih =>
    cases i with
    | zero => simp [ha]
    | succ i =>
      simp only [List.set_cons_succ, List.take_succ_cons, List.takeWhile_cons]
      rw [ih]

/-- The string ends in front of the first zero of the bytes that are declared for it. -/
lemma trailingString_eq :
    trailingString b n size len =
      if n < size + len then none else some (((b.drop size).take len).takeWhile (· ≠ 0)) := by
  have hset : (b.set (size + len) 0).drop size = (b.drop size).set len 0 := by
    simp [List.drop_set]
  rw [trailingString, hset, takeWhile_set (by simp)]

/-- A string that the length check accepts lies within the datagram. -/
lemma trailingString_congr (h : b.take n = b'.take n) :
    trailingString b n size len = trailingString b' n size len := by
  rw [trailingString_eq, trailingString_eq]
  split_ifs with hn
  · rfl
  · have htake : ∀ c : Bytes, (c.drop size).take len = ((c.take n).drop size).take len := by
      intro c
      rw [List.drop_take, List.take_take]
      congr 1
      omega
    rw [htake b, htake b', h]

lemma trailingString_eq_none (h : n < size) : trailingString b n size len = none := by
  simp [trailingString, Nat.lt_add_right len h]

/-- The first byte is within the datagram. -/
lemma headD_congr (hn : 1 ≤ n) (h : b.take n = b'.take n) : b.headD 0 = b'.headD 0 := by
  obtain ⟨m, rfl⟩ : ∃ m, n = m + 1 := ⟨n - 1, by omega⟩
  cases b <;> cases b' <;> simp_all

/-- What the switch reads from a datagram, if the cases without a length check find their struct
in it. -/
lemma readRequest_congr (h : b.take n = b'.take n)
    (hid : b.headD 0 = MessageType.clientIdReq.code → sizeof ClientIdRequest.layout ≤ n)
    (hhb : b.headD 0 = MessageType.heartbeat.code → sizeof Heartbeat.layout ≤ n) :
    readRequest b n = readRequest b' n := by
  unfold readRequest
  split_ifs with hn
  · rfl
  · rw [← headD_congr (not_lt.mp hn) h]
    cases ht : MessageType.ofCode (b.headD 0) with
    | none => rfl
    | some t =>
      cases t with
      | clientIdReq =>
        have hslice := slice_congr ClientIdRequest.layout (by decide) (hid (ofCode_eq_some ht)) h
        simp only [readU32, hslice]
      | heartbeat =>
        have hslice := slice_congr Heartbeat.layout (by decide) (hhb (ofCode_eq_some ht)) h
        simp only [readClientId, hslice]
      | jobReq =>
        by_cases hsize : n < sizeof JobRequest.layout
        · simp only [trailingString_eq_none hsize, Option.map_none]
        · simp only [JobRequest.read_congr (not_lt.mp hsize) h, trailingString_congr h]
      | uploadReq =>
        by_cases hsize : n < sizeof UploadRequest.layout
        · simp only [trailingString_eq_none hsize, Option.map_none]
        · simp only [UploadRequest.read_congr (not_lt.mp hsize) h, trailingString_congr h]
      | downloadReq =>
        by_cases hsize : n < sizeof DownloadRequest.layout
        · simp only [trailingString_eq_none hsize, Option.map_none]
        · simp only [DownloadRequest.read_congr (not_lt.mp hsize) h, trailingString_congr h]
      | _ => rfl

lemma readRequest_clientId (hn : 1 ≤ n) (h : b.headD 0 = MessageType.clientIdReq.code) :
    readRequest b n = some (.clientId (readU32 ClientIdRequest.layout 1 b)) := by
  have htype : MessageType.ofCode MessageType.clientIdReq.code = some .clientIdReq := by decide
  rw [readRequest, if_neg (by omega), h, htype]

lemma readRequest_heartbeat (hn : 1 ≤ n) (h : b.headD 0 = MessageType.heartbeat.code) :
    readRequest b n = some (.heartbeat (readClientId Heartbeat.layout 1 b)) := by
  have htype : MessageType.ofCode MessageType.heartbeat.code = some .heartbeat := by decide
  rw [readRequest, if_neg (by omega), h, htype]

/-- The receive buffer with the datagram `d` and every byte behind it equal to `x`. -/
def fillBuffer (d : Bytes) (x : UInt8) : Bytes := d ++ List.replicate (BUFFER_SIZE - d.length) x

lemma length_fillBuffer (hd : d.length ≤ BUFFER_SIZE) (x : UInt8) :
    (fillBuffer d x).length = BUFFER_SIZE := by
  simp [fillBuffer, hd]

lemma headD_fillBuffer (hd : 1 ≤ d.length) (x : UInt8) : (fillBuffer d x).headD 0 = d.headD 0 := by
  cases d with
  | nil => simp at hd
  | cons c d => rfl

/-- A field that reaches behind the datagram tells two fillings apart. -/
lemma slice_fillBuffer_ne (fs : List Field) (i : ℕ)
    (hd : d.length < (offsetsFrom 0 fs).getD i 0 + (fs.map Field.size).getD i 0)
    (hsize : 0 < (fs.map Field.size).getD i 0)
    (hend : (offsetsFrom 0 fs).getD i 0 + (fs.map Field.size).getD i 0 ≤ BUFFER_SIZE) :
    slice fs i (fillBuffer d 0) ≠ slice fs i (fillBuffer d 1) := by
  generalize hoff : (offsetsFrom 0 fs).getD i 0 = off at hd hend
  generalize hk : (fs.map Field.size).getD i 0 = k at hd hsize hend
  have last : ∀ x, (slice fs i (fillBuffer d x))[k - 1]? = some x := by
    intro x
    have hlt : off + (k - 1) < (fillBuffer d x).length := by
      rw [length_fillBuffer (by omega)]
      omega
    simp only [slice, hoff, hk, List.getElem?_take, List.getElem?_drop]
    rw [if_pos (by omega), List.getElem?_eq_getElem hlt]
    simp only [fillBuffer]
    rw [List.getElem_append_right (by omega), List.getElem_replicate]
  intro heq
  have h01 := (last 0).symm.trans ((congrArg (·[k - 1]?) heq).trans (last 1))
  simp at h01

lemma readU32_injective {fs : List Field} {i : ℕ} (hlen : (slice fs i b).length = 4)
    (hlen' : (slice fs i b').length = 4) (h : readU32 fs i b = readU32 fs i b') :
    slice fs i b = slice fs i b' := by
  have hlt := leNat_lt (b := slice fs i b)
  have hlt' := leNat_lt (b := slice fs i b')
  rw [hlen] at hlt
  rw [hlen'] at hlt'
  have hnat := congrArg UInt32.toNat h
  simp only [readU32, UInt32.toNat_ofNat'] at hnat
  exact leNat_injective (hlen.trans hlen'.symm) (by omega)

lemma ClientId.ofBytes_injective (hlen : b.length = 16) (hlen' : b'.length = 16)
    (h : ClientId.ofBytes b = ClientId.ofBytes b') : b = b' := by
  apply List.ext_getElem (hlen.trans hlen'.symm)
  intro i hi hi'
  have hget := congrArg (fun v : ClientId => v[i]?) h
  simpa [ClientId.ofBytes, hi, hi', hlen ▸ hi] using hget

/-- Two fillings of a short `CLIENT_ID_REQ` have different message ids. -/
lemma messageId_fillBuffer_ne (hmax : d.length ≤ BUFFER_SIZE)
    (hshort : d.length < sizeof ClientIdRequest.layout) :
    readU32 ClientIdRequest.layout 1 (fillBuffer d 0)
      ≠ readU32 ClientIdRequest.layout 1 (fillBuffer d 1) := by
  have hne := slice_fillBuffer_ne ClientIdRequest.layout 1
    (hshort.trans_eq (by decide)) (by decide) (by decide)
  have hfour : ∀ x, (slice ClientIdRequest.layout 1 (fillBuffer d x)).length = 4 := by
    intro x
    apply length_slice
    rw [length_fillBuffer hmax]
    decide
  intro heq
  exact hne (readU32_injective (hfour 0) (hfour 1) heq)

/-- Two fillings of a short `CLIENT_ID_REQ` are answered differently. -/
lemma clientIdReq_fits (hpos : 1 ≤ d.length) (hmax : d.length ≤ BUFFER_SIZE)
    (h : IgnoresLeftOver d) (htype : d.headD 0 = MessageType.clientIdReq.code) :
    sizeof ClientIdRequest.layout ≤ d.length := by
  have hlen : ∀ x, (fillBuffer d x).length = BUFFER_SIZE := length_fillBuffer hmax
  by_contra hshort
  rw [not_le] at hshort
  have hread : ∀ x, readRequest (fillBuffer d x) d.length
      = some (.clientId (readU32 ClientIdRequest.layout 1 (fillBuffer d x))) := by
    intro x
    apply readRequest_clientId hpos
    rw [headD_fillBuffer hpos, htype]
  have heq := h ⟨0, Vector.replicate 16 0, fun _ => none, fun _ => false, true, true⟩ ⟨0, 0⟩
    ⟨[], [], [], []⟩ _ _ (hlen 0) (hlen 1) (List.prefix_append _ _) (List.prefix_append _ _)
  simp only [handleUdpMessage, hread, Prod.mk.injEq, Option.some.injEq,
    Reply.clientIdAck.injEq, true_and, and_true] at heq
  exact messageId_fillBuffer_ne hmax hshort heq

/-- Of two fillings of a short `HEARTBEAT` only one finds the client whose id goes on with
zeros. -/
lemma heartbeat_fits (hpos : 1 ≤ d.length) (hmax : d.length ≤ BUFFER_SIZE)
    (h : IgnoresLeftOver d) (htype : d.headD 0 = MessageType.heartbeat.code) :
    sizeof Heartbeat.layout ≤ d.length := by
  have hlen : ∀ x, (fillBuffer d x).length = BUFFER_SIZE := length_fillBuffer hmax
  by_contra hshort
  rw [not_le] at hshort
  have hne := slice_fillBuffer_ne Heartbeat.layout 1
    (hshort.trans_eq (by decide)) (by decide) (by decide)
  have hsixteen : ∀ x, (slice Heartbeat.layout 1 (fillBuffer d x)).length = 16 := by
    intro x
    apply length_slice
    rw [hlen]
    decide
  have hread : ∀ x, readRequest (fillBuffer d x) d.length
      = some (.heartbeat (readClientId Heartbeat.layout 1 (fillBuffer d x))) := by
    intro x
    apply readRequest_heartbeat hpos
    rw [headD_fillBuffer hpos, htype]
  have hid : readClientId Heartbeat.layout 1 (fillBuffer d 0)
      ≠ readClientId Heartbeat.layout 1 (fillBuffer d 1) := by
    intro hid
    exact hne (ClientId.ofBytes_injective (hsixteen 0) (hsixteen 1) hid)
  have heq := h ⟨1, Vector.replicate 16 0, fun _ => none, fun _ => false, true, true⟩ ⟨0, 0⟩
    ⟨[⟨readClientId Heartbeat.layout 1 (fillBuffer d 0), ⟨0, 0⟩, 0⟩], [], [], []⟩ _ _
    (hlen 0) (hlen 1) (List.prefix_append _ _) (List.prefix_append _ _)
  simp [handleUdpMessage, hread, updateHeartbeat_cons, hid] at heq

lemma ignoresLeftOver_of_fits (hpos : 1 ≤ d.length)
    (hid : d.headD 0 = MessageType.clientIdReq.code → sizeof ClientIdRequest.layout ≤ d.length)
    (hhb : d.headD 0 = MessageType.heartbeat.code → sizeof Heartbeat.layout ≤ d.length) :
    IgnoresLeftOver d := by
  intro env src t b b' _ _ hb hb'
  have htake : b.take d.length = b'.take d.length := by
    rw [← List.prefix_iff_eq_take.mp hb, ← List.prefix_iff_eq_take.mp hb']
  have hhead : b.headD 0 = d.headD 0 := by
    obtain ⟨tail, rfl⟩ := hb
    cases d with
    | nil => simp at hpos
    | cons c d => rfl
  have hread : readRequest b d.length = readRequest b' d.length :=
    readRequest_congr htake (hhead ▸ hid) (hhead ▸ hhb)
  simp only [handleUdpMessage, hread]

/-- A datagram has an effect of its own exactly when the two cases that do not compare its length
with the size of their struct find the struct in it. -/
theorem ignoresLeftOver_iff (d : Bytes) (hpos : 1 ≤ d.length) (hmax : d.length ≤ BUFFER_SIZE) :
    IgnoresLeftOver d ↔
      (d.headD 0 = MessageType.clientIdReq.code → sizeof ClientIdRequest.layout ≤ d.length) ∧
      (d.headD 0 = MessageType.heartbeat.code → sizeof Heartbeat.layout ≤ d.length) := by
  constructor
  · intro h
    exact ⟨clientIdReq_fits hpos hmax h, heartbeat_fits hpos hmax h⟩
  · rintro ⟨hid, hhb⟩
    exact ignoresLeftOver_of_fits hpos hid hhb

/-- A heartbeat of 17 bytes. -/
theorem ignoresLeftOver_heartbeat :
    IgnoresLeftOver (MessageType.heartbeat.code :: List.replicate 16 7) :=
  (ignoresLeftOver_iff _ (by decide) (by decide)).mpr ⟨by decide, by decide⟩

/-- A datagram of the one byte `CLIENT_ID_REQ` is answered with a message id from the bytes behind
it. -/
theorem not_ignoresLeftOver_clientIdReq : ¬ IgnoresLeftOver [MessageType.clientIdReq.code] := by
  intro h
  have heq := h ⟨0, Vector.replicate 16 0, fun _ => none, fun _ => false, true, true⟩ ⟨0, 0⟩
    ⟨[], [], [], []⟩ (fillBuffer [1] 0) (fillBuffer [1] 1) (length_fillBuffer (by decide) 0)
    (length_fillBuffer (by decide) 1) (List.prefix_append _ _) (List.prefix_append _ _)
  have hread : ∀ x, readRequest (fillBuffer [1] x) 1
      = some (.clientId (readU32 ClientIdRequest.layout 1 (fillBuffer [1] x))) := by
    intro x
    exact readRequest_clientId le_rfl rfl
  simp only [handleUdpMessage, List.length_singleton, hread, Prod.mk.injEq, Option.some.injEq,
    Reply.clientIdAck.injEq, true_and, and_true] at heq
  revert heq
  decide

end LeftOver

end Pcd
