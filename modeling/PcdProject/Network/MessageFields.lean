import PcdProject.Network.Terminators
import PcdProject.Protocol.ReplyStructs
import PcdProject.Server.ProcessingThread

/-!
# Undefined fields in the messages of the server

Two runs of the server that differ in the contents of uninitialised memory only: of the frame in
which a function fills its message struct, and of the receive buffer of `client_thread`, behind the
bytes that were received so far.
-/

namespace Pcd

open CLayout

/-- What the memory contains to which nothing was stored: the receive buffer, and the frame of the
function that sends a message. -/
structure Stack where
  buffer : Bytes
  length_buffer : buffer.length = BUFFER_SIZE
  frame : ℕ → UInt8

/-! ### The receive buffer -/

/-- The receive buffer after `recvfrom`. -/
def received (buffer d : Bytes) : Bytes := d.take BUFFER_SIZE ++ buffer.drop d.length

/-- The receive buffer after `handle_udp_message`, which terminates the string of a request. -/
def terminated (buffer : Bytes) (n : ℕ) : Bytes :=
  match handleUdpMessageTerminator buffer n with
  | some k => buffer.set k 0
  | none   => buffer

/-- The receive buffer after one turn of the loop of `client_thread`. -/
def afterTurn (buffer d : Bytes) : Bytes :=
  terminated (received buffer d) (min d.length BUFFER_SIZE)

/-- The receive buffer after the datagrams, in their order. -/
def Stack.received (stack : Stack) (earlier : List Bytes) : Bytes :=
  earlier.foldl afterTurn stack.buffer

section Buffer

variable {b b' d : Bytes} {n k : ℕ} {ds : List Bytes}

lemma length_received (d : Bytes) (hb : b.length = BUFFER_SIZE) :
    (received b d).length = BUFFER_SIZE := by
  simp only [received, List.length_append, List.length_take, List.length_drop, hb]
  omega

/-- A terminator is behind a struct. -/
lemma le_terminator (h : handleUdpMessageTerminator b n = some k) : 32 ≤ k := by
  have hsize : sizeof JobRequest.layout = 32 ∧ sizeof UploadRequest.layout = 48 ∧
      sizeof DownloadRequest.layout = 32 := by
    decide
  unfold handleUdpMessageTerminator at h
  split_ifs at h
  split at h
  case h_4 => cases h
  all_goals
    obtain ⟨-, rfl⟩ := receivedTerminator_eq_some.mp h
    omega

lemma getElem?_terminated (hk : k < 32) : (terminated b n)[k]? = b[k]? := by
  unfold terminated
  split
  · rename_i j hj
    have hle := le_terminator hj
    exact List.getElem?_set_ne (by omega)
  · rfl

lemma length_terminated : (terminated b n).length = b.length := by
  unfold terminated
  split
  · exact List.length_set
  · rfl

lemma getElem?_received_of_lt (hlt : d.length ≤ k) (hk : k < BUFFER_SIZE) :
    (received b d)[k]? = b[k]? := by
  have htake : d.take BUFFER_SIZE = d := List.take_of_length_le (by omega)
  rw [received, htake, List.getElem?_append_right hlt, List.getElem?_drop]
  congr 1
  omega

lemma getElem?_received_of_ge (hge : k < d.length) (hk : k < BUFFER_SIZE) :
    (received b d)[k]? = d[k]? := by
  rw [received, List.getElem?_append_left (by rw [List.length_take]; omega),
    List.getElem?_take_of_lt hk]

/-- A byte in front of every terminator is the one that was received last, or else the one that was
in the buffer. -/
lemma getElem?_foldl_congr (hk : k < 32) (h : b[k]? = b'[k]? ∨ ∃ d ∈ ds, k < d.length) :
    (ds.foldl afterTurn b)[k]? = (ds.foldl afterTurn b')[k]? := by
  induction ds generalizing b b' with
  | nil => simpa using h
  | cons d ds ih =>
    apply ih
    rw [afterTurn, afterTurn, getElem?_terminated hk, getElem?_terminated hk]
    by_cases hd : k < d.length
    · left
      rw [getElem?_received_of_ge hd (hk.trans (by decide)),
        getElem?_received_of_ge hd (hk.trans (by decide))]
    · rw [getElem?_received_of_lt (not_lt.mp hd) (hk.trans (by decide)),
        getElem?_received_of_lt (not_lt.mp hd) (hk.trans (by decide))]
      rcases h with h | ⟨e, he, hlt⟩
      · exact Or.inl h
      · rcases List.mem_cons.mp he with rfl | he
        · exact absurd hlt hd
        · exact Or.inr ⟨e, he, hlt⟩

lemma getElem?_foldl_of_short (hk : k < 32) (h : ∀ d ∈ ds, d.length ≤ k) :
    (ds.foldl afterTurn b)[k]? = b[k]? := by
  induction ds generalizing b with
  | nil => rfl
  | cons d ds ih =>
    obtain ⟨hd, hds⟩ := List.forall_mem_cons.mp h
    rw [List.foldl_cons, ih hds, afterTurn, getElem?_terminated hk,
      getElem?_received_of_lt hd (hk.trans (by decide))]

/-- The last datagram is still to be handled. -/
lemma getElem?_received_foldl (hk : k < 32) :
    (received (ds.foldl afterTurn b) d)[k]? = ((ds ++ [d]).foldl afterTurn b)[k]? := by
  rw [List.foldl_append]
  exact (getElem?_terminated hk).symm

lemma length_foldl_afterTurn (hb : b.length = BUFFER_SIZE) :
    (ds.foldl afterTurn b).length = BUFFER_SIZE := by
  induction ds generalizing b with
  | nil => exact hb
  | cons d ds ih => exact ih (length_terminated.trans (length_received d hb))

end Buffer

/-! ### Requests and jobs -/

/-- What the server sends a message for: a datagram, behind those that the client thread received
before it, or a job whose command returned. -/
inductive Occasion where
  | request (env : Env) (src : SockAddr) (earlier : List Bytes) (d : Bytes)
  | job (job : PendingJob) (ret : ℤ)

namespace Occasion

/-- The tables are those of the run: a heartbeat that ends in uninitialised bytes can have changed
them. -/
def reply (stack : Stack) (t : Tables) : Occasion → Option Reply
  | .request env src earlier d =>
    (handleUdpMessage env src t (Pcd.received (stack.received earlier) d)
      (min d.length BUFFER_SIZE)).2
  | .job pending ret => some (jobResult pending (if ret = 0 then .ok else .error))

/-- The declared fields of the message and the string behind it. -/
def observed (stack : Stack) (t : Tables) (o : Occasion) : Option (List Bytes) :=
  (o.reply stack t).map fun reply => declared reply.layout (reply.send stack.frame)

/-- The `JobResult` of a job carries the client id and the job id of the job. -/
def NamesJob (stack : Stack) (t : Tables) : Occasion → Prop
  | .request .. => True
  | .job pending ret => ∀ message ∈ (Occasion.job pending ret).reply stack t,
    readClientId JobResult.layout 2 (message.send stack.frame) = pending.clientId ∧
      readU32 JobResult.layout 3 (message.send stack.frame) = pending.jobId

/-- Nothing undefined is in the message. -/
structure Defined (o : Occasion) : Prop where
  observed_eq : ∀ stack stack' t t', o.observed stack t = o.observed stack' t'
  namesJob    : ∀ stack t, o.NamesJob stack t

/-- The message is no `JobResult`; and if it answers a `ClientIdRequest`, then so many bytes were
received that they reach to the end of this struct. -/
def Received : Occasion → Prop
  | .request _ _ earlier d => d.headD 0 = MessageType.clientIdReq.code →
    ∃ e ∈ d :: earlier, sizeof ClientIdRequest.layout ≤ e.length
  | .job .. => False

end Occasion

section Replies

variable {env : Env} {src : SockAddr} {t t' : Tables} {b b' : Bytes} {n : ℕ}

/-- The tables have no part in a reply. -/
lemma reply_tables (t t' : Tables) :
    (handleUdpMessage env src t b n).2 = (handleUdpMessage env src t' b n).2 := by
  unfold handleUdpMessage
  cases readRequest b n with
  | none => rfl
  | some req =>
    cases req with
    | clientId | heartbeat | upload => rfl
    | job req cmd =>
      simp only [createJob]
      split_ifs <;> rfl
    | download req filename =>
      simp only [handleDownloadRequest]
      cases env.stat (downloadPath req.clientId req.jobId filename) <;> rfl

/-- A reply depends on the datagram, and on the message id of a `ClientIdRequest`. -/
lemma reply_congr (h : b.take n = b'.take n)
    (hid : b.headD 0 = MessageType.clientIdReq.code →
      readU32 ClientIdRequest.layout 1 b = readU32 ClientIdRequest.layout 1 b') :
    (handleUdpMessage env src t b n).2 = (handleUdpMessage env src t' b' n).2 := by
  rw [reply_tables t t']
  by_cases hn : n < 1
  · simp only [handleUdpMessage, readRequest, if_pos hn]
  · have hpos : 1 ≤ n := not_lt.mp hn
    have hhead : b.headD 0 = b'.headD 0 := headD_congr hpos h
    by_cases hreq : b.headD 0 = MessageType.clientIdReq.code
    · simp only [handleUdpMessage, readRequest_clientId hpos hreq,
        readRequest_clientId hpos (hhead ▸ hreq), hid hreq]
    · by_cases hbeat : b.headD 0 = MessageType.heartbeat.code
      · simp only [handleUdpMessage, readRequest_heartbeat hpos hbeat,
          readRequest_heartbeat hpos (hhead ▸ hbeat)]
      · have hread : readRequest b n = readRequest b' n :=
          readRequest_congr h (fun h => absurd h hreq) fun h => absurd h hbeat
        simp only [handleUdpMessage, hread]

/-- No reply to a datagram is a `JobResult`. -/
lemma setsAll_of_reply {reply : Reply} (h : reply ∈ (handleUdpMessage env src t b n).2) :
    reply.SetsAll := by
  rw [Reply.setsAll_iff]
  rintro jobId status msg rfl
  unfold handleUdpMessage at h
  cases hread : readRequest b n with
  | none => simp [hread] at h
  | some req =>
    rw [hread] at h
    cases req with
    | clientId | heartbeat => simp at h
    | upload req filename => simp [handleUploadRequest, uploadAck] at h
    | job req cmd =>
      simp only [jobAck] at h
      split_ifs at h <;> simp at h
    | download req filename =>
      simp only [handleDownloadRequest, downloadAck] at h
      cases hstat : env.stat (downloadPath req.clientId req.jobId filename) <;>
        simp [hstat] at h

end Replies

/-! ### The message id of a `ClientIdRequest` -/

/-- Every byte of the memory is `x`. -/
def Stack.fill (x : UInt8) : Stack where
  buffer := List.replicate BUFFER_SIZE x
  length_buffer := List.length_replicate
  frame _ := x

section MessageId

variable {earlier : List Bytes} {d : Bytes}

lemma slice_messageId (b : Bytes) : slice ClientIdRequest.layout 1 b = (b.drop 4).take 4 := rfl

lemma slice_received_congr (stack stack' : Stack)
    (h : ∃ e ∈ d :: earlier, sizeof ClientIdRequest.layout ≤ e.length) :
    slice ClientIdRequest.layout 1 (received (stack.received earlier) d)
      = slice ClientIdRequest.layout 1 (received (stack'.received earlier) d) := by
  have hsize : sizeof ClientIdRequest.layout = 8 := by decide
  obtain ⟨e, he, hlen⟩ := h
  rw [hsize] at hlen
  have hmem : e ∈ earlier ++ [d] := by simpa [or_comm] using he
  apply List.ext_getElem?
  intro m
  rw [slice_messageId, slice_messageId, List.getElem?_take, List.getElem?_take]
  split_ifs with hm
  · rw [List.getElem?_drop, List.getElem?_drop, Stack.received, Stack.received,
      getElem?_received_foldl (by omega), getElem?_received_foldl (by omega)]
    exact getElem?_foldl_congr (by omega) (Or.inr ⟨e, hmem, by omega⟩)
  · rfl

/-- As long as no datagram reaches to its last byte, the message id shows the memory. -/
lemma readU32_received_ne (h : ∀ e ∈ d :: earlier, e.length < sizeof ClientIdRequest.layout) :
    readU32 ClientIdRequest.layout 1 (received ((Stack.fill 0).received earlier) d)
      ≠ readU32 ClientIdRequest.layout 1 (received ((Stack.fill 1).received earlier) d) := by
  have hshort : ∀ e ∈ earlier ++ [d], e.length ≤ 7 := by
    intro e he
    have hsize : sizeof ClientIdRequest.layout = 8 := by decide
    have hlt := h e (by simpa [or_comm] using he)
    omega
  have hlen : ∀ x, (slice ClientIdRequest.layout 1
      (received ((Stack.fill x).received earlier) d)).length = 4 := by
    intro x
    have hbuffer : ((Stack.fill x).received earlier).length = BUFFER_SIZE :=
      length_foldl_afterTurn (Stack.fill x).length_buffer
    apply length_slice
    rw [length_received d hbuffer]
    decide
  have hlast : ∀ x, (slice ClientIdRequest.layout 1
      (received ((Stack.fill x).received earlier) d))[3]? = some x := by
    intro x
    rw [slice_messageId, List.getElem?_take_of_lt (by omega), List.getElem?_drop, Stack.received,
      getElem?_received_foldl (by omega), getElem?_foldl_of_short (by omega) hshort]
    exact List.getElem?_replicate_of_lt (by decide)
  intro heq
  have hslice := readU32_injective (hlen 0) (hlen 1) heq
  have h01 := (hlast 0).symm.trans ((congrArg (·[3]?) hslice).trans (hlast 1))
  simp at h01

end MessageId

lemma slice_eq_of_declared_eq {fs : List Field} {i : ℕ} {d d' : Bytes}
    (h : declared fs d = declared fs d') (hi : i < fs.length) : slice fs i d = slice fs i d' := by
  have hget : ∀ d, (declared fs d)[i]? = some (slice fs i d) := by
    intro d
    rw [declared, List.getElem?_append_left (by simpa using hi), List.getElem?_map,
      List.getElem?_range hi]
    rfl
  have hi' := (hget d).symm.trans ((congrArg (·[i]?) h).trans (hget d'))
  exact Option.some.inj hi'

namespace Occasion

variable {env : Env} {src : SockAddr} {earlier : List Bytes} {d : Bytes}

lemma defined_request (h : (request env src earlier d).Received) :
    (request env src earlier d).Defined where
  observed_eq := by
    intro stack stack' t t'
    have htake : ∀ stack : Stack,
        (Pcd.received (stack.received earlier) d).take (min d.length BUFFER_SIZE)
          = d.take BUFFER_SIZE := by
      intro stack
      exact List.take_left' (by rw [List.length_take, min_comm])
    have hhead : (Pcd.received (stack.received earlier) d).headD 0
        = MessageType.clientIdReq.code → d.headD 0 = MessageType.clientIdReq.code ∨ d = [] := by
      cases d with
      | nil => exact fun _ => Or.inr rfl
      | cons c d => exact Or.inl
    have hreply : (request env src earlier d).reply stack t
        = (request env src earlier d).reply stack' t' := by
      by_cases hnil : d = []
      · simp [reply, handleUdpMessage, readRequest, hnil]
      · refine reply_congr ((htake stack).trans (htake stack').symm) fun hreq => ?_
        have hd := (hhead hreq).resolve_right hnil
        simp only [readU32, slice_received_congr stack stack' (h hd)]
    rw [observed, observed, ← hreply]
    cases hmessage : (request env src earlier d).reply stack t with
    | none => rfl
    | some message =>
      exact congrArg some (Reply.declared_send_of_setsAll stack.frame stack'.frame (setsAll_of_reply hmessage))
  namesJob := fun _ _ => trivial

lemma received_of_defined (h : (request env src earlier d).Defined) :
    (request env src earlier d).Received := by
  intro htype
  by_contra hshort
  push Not at hshort
  have hpos : 1 ≤ min d.length BUFFER_SIZE := by
    cases d with
    | nil => exact absurd htype (by decide)
    | cons c d => simp [BUFFER_SIZE]
  have hreply : ∀ x, (request env src earlier d).reply (Stack.fill x) ⟨[], [], [], []⟩
      = some (.clientIdAck (readU32 ClientIdRequest.layout 1
          (Pcd.received ((Stack.fill x).received earlier) d)) env.newId) := by
    intro x
    have hhead : (Pcd.received ((Stack.fill x).received earlier) d).headD 0
        = MessageType.clientIdReq.code := by
      cases d with
      | nil => exact absurd htype (by decide)
      | cons c d => exact htype
    simp only [reply, handleUdpMessage, readRequest_clientId hpos hhead]
  have hobserved := h.observed_eq (Stack.fill 0) (Stack.fill 1) ⟨[], [], [], []⟩ ⟨[], [], [], []⟩
  rw [observed, observed, hreply, hreply] at hobserved
  have hfield : slice ClientIdResponse.layout 1 _ = slice ClientIdResponse.layout 1 _ :=
    slice_eq_of_declared_eq (Option.some.inj hobserved) (by decide)
  have hid : ∀ frame messageId, slice ClientIdResponse.layout 1
      ((Reply.clientIdAck messageId env.newId).send frame) = leBytes 4 messageId.toNat := by
    intro frame messageId
    have hmem : (1, leBytes 4 messageId.toNat) ∈ (Reply.clientIdAck messageId env.newId).stores :=
      List.mem_cons_of_mem _ List.mem_cons_self
    exact Reply.slice_send_of_mem frame hmem
  rw [hid, hid] at hfield
  have hread := congrArg (fun bs => UInt32.ofNat (leNat bs)) hfield
  simp only [UInt32.ofNat_leBytes] at hread
  exact readU32_received_ne hshort hread

/-! ### The fields of a `JobResult` -/

variable {frame : ℕ → UInt8} {jobId : UInt32} {status : StatusCode} {msg : String}

/-- The message id and the client id of a `JobResult` are what the memory contains. -/
lemma slice_jobResult {i : ℕ} (hi : i = 1 ∨ i = 2) :
    slice JobResult.layout i ((Reply.jobResult jobId status msg).send frame)
      = slice JobResult.layout i (localStruct frame JobResult.layout) := by
  have hlt : i < JobResult.layout.length := by
    have hlen : JobResult.layout.length = 6 := rfl
    omega
  have hnot : i ∉ (Reply.jobResult jobId status msg).stores.map Prod.fst := by
    simp only [Reply.stores, List.map_cons, List.map_nil, List.mem_cons, List.not_mem_nil, or_false]
    omega
  exact Reply.slice_send_of_notMem frame hlt hnot

lemma reply_job (pending : PendingJob) (ret : ℤ) : ∃ status msg, ∀ stack t,
    (job pending ret).reply stack t = some (.jobResult pending.jobId status msg) := by
  by_cases hret : ret = 0
  · exact ⟨.ok, _, fun _ _ => by rw [reply, if_pos hret]; rfl⟩
  · exact ⟨.error, _, fun _ _ => by rw [reply, if_neg hret]; rfl⟩

lemma not_defined_job (pending : PendingJob) (ret : ℤ) : ¬ (job pending ret).Defined := by
  intro h
  obtain ⟨status, msg, hreply⟩ := reply_job pending ret
  have hobserved := h.observed_eq (Stack.fill 0) (Stack.fill 1) ⟨[], [], [], []⟩ ⟨[], [], [], []⟩
  rw [observed, observed, hreply, hreply] at hobserved
  have hfield : slice JobResult.layout 1 _ = slice JobResult.layout 1 _ :=
    slice_eq_of_declared_eq (Option.some.inj hobserved) (by decide)
  rw [slice_jobResult (Or.inl rfl), slice_jobResult (Or.inl rfl)] at hfield
  exact absurd hfield (by decide)

/-- With some contents of the memory the client id of a `JobResult` is not the one of its job. -/
lemma exists_not_namesJob (pending : PendingJob) (ret : ℤ) (t : Tables) :
    ∃ stack, ¬ (job pending ret).NamesJob stack t := by
  obtain ⟨status, msg, hreply⟩ := reply_job pending ret
  by_contra hall
  push Not at hall
  have hid : ∀ x, readClientId JobResult.layout 2 (localStruct (Stack.fill x).frame JobResult.layout)
      = pending.clientId := by
    intro x
    obtain ⟨hid, -⟩ := hall (Stack.fill x) _ (hreply _ t)
    rwa [readClientId, slice_jobResult (Or.inr rfl)] at hid
  exact absurd ((hid 0).trans (hid 1).symm) (by decide)

/-! ### Main result -/

theorem defined_iff_received (o : Occasion) : o.Defined ↔ o.Received := by
  cases o with
  | request env src earlier d => exact ⟨received_of_defined, defined_request⟩
  | job pending ret => exact iff_of_false (not_defined_job pending ret) id

/-- The message id of the `JobResult` of a job depends on the memory. -/
theorem not_defined : ¬ ∀ o : Occasion, o.Defined := by
  intro h
  exact not_defined_job ⟨Vector.replicate 16 1, ⟨0, 0⟩, 7, cstr "true", 0, 0, 0⟩ 0 (h _)

end Occasion

end Pcd
