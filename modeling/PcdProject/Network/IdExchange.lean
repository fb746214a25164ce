import PcdProject.Client.SubmitJob
import PcdProject.Server.ClientTable
import PcdProject.Server.JobTable
import PcdProject.Server.Traffic

/-!
# The id of a client

`get_client_id` asks for an id up to three times and takes any datagram of the size of a
`ClientIdResponse` for the answer, its type unseen. A client on an address of its own with the
server and all that others send to it: the id is one that the server entered for this address, or a
piece of the text that a kicked client is sent.
-/

namespace Pcd

open CLayout Transition

/-! ### `get_client_id` -/

def ClientIdRequest.datagram (pad : UInt8) (messageId : UInt32) : Bytes :=
  pack pad layout [[MessageType.clientIdReq.code], leBytes 4 messageId.toNat]

/-- In front of the `sendto` or the `recvfrom` of a try, behind the return or in front of the
`exit`. -/
inductive IdPhase where
  | sending (retry : ℕ)
  | waiting (retry : ℕ)
  | got (clientId : ClientId)
  | failed
  deriving DecidableEq

/-- The end of a try that has not returned. -/
def IdPhase.again (retry : ℕ) : IdPhase :=
  if retry + 1 < MAX_RETRIES then .sending (retry + 1) else .failed

/-- `recvfrom` returns, and the buffer is read if it is filled far enough. -/
def IdPhase.receive (retry : ℕ) (d : Bytes) : IdPhase :=
  let buffer := d.take CLIENT_BUFFER_SIZE
  if sizeof ClientIdResponse.layout ≤ buffer.length then
    .got (readClientId ClientIdResponse.layout 2 buffer)
  else .again retry

/-! ### The system -/

/-- The server, and a client at `addr` that has sent `requests`. -/
structure IdExchange where
  server : Server
  addr : SockAddr
  requests : List Bytes
  phase : IdPhase

/-- `arrive` hands a request of the client to the server, `deliver` hands it a reply. Either may
happen never or more than once. -/
inductive IdAction where
  | server (a : Action)
  | arrive (k : ℕ) (leftOver : Bytes) (now : ℤ) (newId : ClientId)
  | send (ok : Bool) (pad : UInt8)
  | deliver (k : ℕ) (unset : Unset)
  | recvFail

/-- The ids that are entered for the address in a step of the server. -/
def Action.assigns (addr : SockAddr) (a : Action) : List ClientId :=
  a.tableOps.filterMap fun
    | .register id src _ => if src = addr then some id else none
    | _                  => none

namespace IdExchange

def init (dir : Bytes) (addr : SockAddr) : IdExchange := ⟨.init dir, addr, [], .sending 0⟩

/-- What the server has sent to the client. -/
def replies (s : IdExchange) : List Reply :=
  (s.server.outbox.filter (·.1 = s.addr)).map Prod.snd

/-- The steps of the server in a step of the whole. -/
def serverActions (s : IdExchange) : IdAction → List Action
  | .server a => [a]
  | .arrive k leftOver now newId =>
    (s.requests[k]?).toList.map fun d =>
      .client (.receive (d ++ leftOver) d.length s.addr now newId)
  | _ => []

/-- Nobody else sends from the address of the client. -/
def step (s : IdExchange) (a : IdAction) : Option IdExchange :=
  match a with
  | .server b =>
    if b.source = some s.addr then none else (s.server.step b).map fun t => { s with server := t }
  | .arrive k leftOver now newId =>
    (s.requests[k]?).bind fun d =>
      (s.server.step (.client (.receive (d ++ leftOver) d.length s.addr now newId))).map fun t =>
        { s with server := t }
  | .send ok pad =>
    match s.phase with
    | .sending retry =>
      if ok then
        some { s with
          requests := s.requests ++ [ClientIdRequest.datagram pad 1]
          phase := .waiting retry }
      else some { s with phase := .again retry }
    | _ => none
  | .deliver k unset =>
    match s.phase with
    | .waiting retry =>
      (s.replies[k]?).map fun reply => { s with phase := .receive retry (reply.datagram unset) }
    | _ => none
  | .recvFail =>
    match s.phase with
    | .waiting retry => some { s with phase := .again retry }
    | _              => none

/-- The ids that the server enters for the client in a step. -/
def assigned (s : IdExchange) (a : IdAction) : List ClientId :=
  (s.serverActions a).flatMap (Action.assigns s.addr)

end IdExchange

/-! ### An address that stays silent -/

/-- The address that the request came from which `client_thread` handles. -/
def ClientThread.source : ClientThread → Option SockAddr
  | .receiving => none
  | .jobStat _ _ src | .jobMkdir _ _ src | .jobAppend _ _ src | .jobReply _ src _
  | .uploadEnqueue _ _ src | .uploadReply _ _ src | .downloadStat _ _ src
  | .downloadChmod _ _ src _ | .downloadReply _ _ src _ | .downloadEnqueue _ _ src => some src

/-- Nothing is done on behalf of the address. -/
structure Silent (addr : SockAddr) (s : Server) : Prop where
  handling : addr ∉ s.clientThread.source
  pending  : ∀ job ∈ s.pendingJobs, job.clientAddr ≠ addr

/-- What is sent to the address in a step are notices of `kick_client_by_id`. -/
def KicksOnly (addr : SockAddr) (s t : Server) : Prop :=
  ∃ out, t.outbox = s.outbox ++ out ∧ ∀ p ∈ out, p.1 = addr → p.2 = .kicked

namespace Silent

variable {addr : SockAddr} {s t : Server} {a : Action}

lemma init (dir : Bytes) : Silent addr (Server.init dir) where
  handling := by simp [Server.init, ClientThread.source]
  pending := by simp [Server.init]

/-- A step that adds no job and sends nothing. -/
lemma move (hs : Silent addr s) (hpc : addr ∉ t.clientThread.source)
    (hjobs : t.pendingJobs = s.pendingJobs) (hout : t.outbox = s.outbox) :
    Silent addr t ∧ KicksOnly addr s t := by
  refine ⟨⟨hpc, hjobs ▸ hs.pending⟩, [], ?_, by simp⟩
  rw [hout, List.append_nil]

/-- A step that answers another address. -/
lemma answer {dst : SockAddr} {reply : Reply} (hs : Silent addr s)
    (hpc : addr ∉ t.clientThread.source) (hjobs : t.pendingJobs = s.pendingJobs)
    (hdst : dst ≠ addr) (hout : t.outbox = s.outbox ++ [(dst, reply)]) :
    Silent addr t ∧ KicksOnly addr s t := by
  refine ⟨⟨hpc, hjobs ▸ hs.pending⟩, [(dst, reply)], hout, ?_⟩
  intro p hp heq
  obtain rfl := List.mem_singleton.mp hp
  exact absurd heq hdst

lemma dispatch {src : SockAddr} {now : ℤ} {newId : ClientId} (hs : Silent addr s)
    (hsrc : src ≠ addr) (req : Option Request) :
    Silent addr (s.dispatch src now newId req) ∧
      KicksOnly addr s (s.dispatch src now newId req) := by
  cases req with
  | none => exact hs.move hs.handling rfl rfl
  | some req =>
    cases req with
    | clientId messageId => exact hs.answer hs.handling rfl hsrc rfl
    | heartbeat id => exact hs.move hs.handling rfl rfl
    | job req cmd => exact hs.move (by simpa [Server.dispatch, ClientThread.source]) rfl rfl
    | upload req name => exact hs.move (by simpa [Server.dispatch, ClientThread.source]) rfl rfl
    | download req name =>
      exact hs.move (by simpa [Server.dispatch, ClientThread.source]) rfl rfl

lemma clientStep {a : ClientAction} (hs : Silent addr s)
    (ha : (Action.client a).source ≠ some addr) (h : s.clientStep a = some t) :
    Silent addr t ∧ KicksOnly addr s t := by
  have hother : ∀ src, s.clientThread.source = some src → src ≠ addr := by
    rintro src hsrc rfl
    exact hs.handling hsrc
  have hidle : addr ∉ ClientThread.receiving.source := by simp [ClientThread.source]
  cases ClientBranch.of_clientStep h with
  | receive buffer n src now newId =>
    have hsrc : src ≠ addr := by simpa [Action.source] using ha
    exact hs.dispatch hsrc _
  | append req cmd src now hpc hfree =>
    have hsrc : src ≠ addr := hother src (by rw [hpc]; rfl)
    refine ⟨⟨by simpa [ClientThread.source], ?_⟩, [], (List.append_nil _).symm, by simp⟩
    exact List.forall_mem_append.mpr ⟨hs.pending, List.forall_mem_singleton.mpr hsrc⟩
  | jobReply req src success hpc | uploadReply ok req name src hpc
  | downloadMissing req name src hpc =>
    exact hs.answer hidle rfl (hother src (by rw [hpc]; rfl)) rfl
  | downloadReply ok req name src size hpc =>
    have hsrc : src ≠ addr := hother src (by rw [hpc]; rfl)
    exact hs.answer (by simpa [Server.send, ClientThread.source]) rfl hsrc rfl
  | jobReplyFail | enqueueDownload => exact hs.move hidle rfl rfl
  | isDirectory info req cmd src hpc | notDirectory info req cmd src hpc
  | missing req cmd src hpc | mkdir req cmd src hpc | mkdirFail req cmd src hpc
  | appendFail req cmd src now hpc | enqueueUpload req name src now hpc
  | downloadStat info req name src hpc | downloadChmod ok req name src size hpc =>
    have hsrc : src ≠ addr := hother src (by rw [hpc]; rfl)
    exact hs.move (by simpa [ClientThread.source]) rfl rfl

lemma processingStep {a : ProcessingAction} (hs : Silent addr s) (h : s.processingStep a = some t) :
    Silent addr t ∧ KicksOnly addr s t := by
  cases ProcessingRule.of_processingStep h with
  | sendto dir i status job hpc hjob =>
    exact hs.answer hs.handling rfl (hs.pending job (List.mem_of_getElem? hjob)) rfl
  | remove dir i hpc =>
    refine ⟨⟨hs.handling, ?_⟩, [], (List.append_nil _).symm, by simp⟩
    intro job hjob
    exact hs.pending job (List.mem_of_mem_eraseIdx hjob)
  | _ => exact hs.move hs.handling rfl rfl

lemma step (hs : Silent addr s) (ha : a.source ≠ some addr) (h : s.step a = some t) :
    Silent addr t ∧ KicksOnly addr s t := by
  cases SystemRule.of_step h with
  | client a _ _ => exact hs.clientStep ha h
  | worker w a _ h =>
    cases h with
    | update job remaining total now hpc hfree =>
      refine ⟨⟨hs.handling, ?_⟩, [], (List.append_nil _).symm, by simp⟩
      have hmap := map_countFile PendingJob.clientAddr (fun _ _ _ => rfl) job.key now s.pendingJobs
      intro p hp
      have hmem : p.clientAddr ∈ s.pendingJobs.map PendingJob.clientAddr :=
        hmap ▸ List.mem_map_of_mem hp
      obtain ⟨q, hq, heq⟩ := List.mem_map.mp hmem
      exact heq ▸ hs.pending q hq
    | _ => exact hs.move hs.handling rfl rfl
  | processing a _ _ => exact hs.processingStep h
  | download a _ h => cases h <;> exact hs.move hs.handling rfl rfl
  | kick id =>
    refine ⟨⟨hs.handling, hs.pending⟩, kickNotice id s.clients, rfl, ?_⟩
    intro p hp _
    obtain ⟨c, -, rfl⟩ := List.mem_map.mp hp
    rfl
  | sweep | limit | limitIgnored | connectUpload | connectDownload =>
    exact hs.move hs.handling rfl rfl

end Silent

/-! ### What the client receives -/

/-- What a client takes for its id that is sent the notice of `kick_client_by_id`. -/
def kickedId : ClientId :=
  readClientId ClientIdResponse.layout 2 (cstr "You have been kicked by the admin.\n")

lemma headD_clientIdRequest (pad : UInt8) (messageId : UInt32) :
    ∃ rest, ClientIdRequest.datagram pad messageId = MessageType.clientIdReq.code :: rest :=
  ⟨_, rfl⟩

/-- The server enters an id for a request of `get_client_id`, and answers with it. -/
lemma clientStep_clientIdRequest {s t : Server} {pad : UInt8} {messageId : UInt32}
    {leftOver : Bytes} {addr : SockAddr} {now : ℤ} {newId : ClientId} (d : Bytes)
    (hd : d = ClientIdRequest.datagram pad messageId)
    (h : s.clientStep (.receive (d ++ leftOver) d.length addr now newId) = some t) :
    s.clientThread = .receiving ∧
      Action.assigns addr (.client (.receive (d ++ leftOver) d.length addr now newId)) = [newId] ∧
      ∃ m, t = s.dispatch addr now newId (some (.clientId m)) := by
  obtain ⟨rest, hrest⟩ := headD_clientIdRequest pad messageId
  rw [hrest] at hd
  subst hd
  have hread := readRequest_clientId (b := MessageType.clientIdReq.code :: rest ++ leftOver)
    (n := (MessageType.clientIdReq.code :: rest).length) (by simp) rfl
  cases ClientBranch.of_clientStep h with
  | receive _ _ _ _ _ hpc =>
    refine ⟨hpc, ?_, _, by rw [hread]⟩
    rw [Action.assigns, Action.tableOps, hread]
    simp

/-- The id is read from an answer of the server, and from its notice. -/
lemma receive_clientIdAck (retry : ℕ) (unset : Unset) (messageId : UInt32) (id : ClientId) :
    IdPhase.receive retry ((Reply.clientIdAck messageId id).datagram unset) = .got id := by
  let reply : Reply := .clientIdAck messageId id
  have hlength : (reply.datagram unset).length = sizeof ClientIdResponse.layout :=
    length_pack unset.pad (by decide) (reply.values_fit unset)
  have hslice : slice ClientIdResponse.layout 2 (reply.datagram unset) = id.toList :=
    reply.slice_datagram unset (i := 2) (show 2 < ClientIdResponse.layout.length by decide)
  have htake : (reply.datagram unset).take CLIENT_BUFFER_SIZE = reply.datagram unset :=
    List.take_of_length_le (by rw [hlength]; decide)
  simp only [IdPhase.receive]
  rw [htake, if_pos hlength.ge, readClientId, hslice, ClientId.ofBytes_toList]

lemma receive_kicked (retry : ℕ) (unset : Unset) :
    IdPhase.receive retry (Reply.kicked.datagram unset) = .got kickedId := by
  have hlength : (Reply.kicked.datagram unset).length = 35 := by
    simp [Reply.datagram, cstr]
  have htake : (Reply.kicked.datagram unset).take CLIENT_BUFFER_SIZE
      = Reply.kicked.datagram unset := List.take_of_length_le (by rw [hlength]; decide)
  simp only [IdPhase.receive]
  rw [htake, if_pos (by rw [hlength]; decide)]
  rfl

/-! ### The invariant -/

/-- The ids for the client are `ids`: what it has sent asks for one, what it is sent is one of them
or a notice, and so is what it has taken. -/
structure IdInv (s : IdExchange) (ids : List ClientId) : Prop where
  silent   : Silent s.addr s.server
  requests : ∀ d ∈ s.requests, ∃ pad, d = ClientIdRequest.datagram pad 1
  replies  : ∀ reply ∈ s.replies, reply = .kicked ∨ ∃ m, ∃ id ∈ ids, reply = .clientIdAck m id
  taken    : ∀ id, s.phase = .got id → id ∈ ids ∨ id = kickedId ∧ .kicked ∈ s.replies

namespace IdInv

variable {s t : IdExchange} {a : IdAction} {ids : List ClientId}

lemma init (dir : Bytes) (addr : SockAddr) : IdInv (.init dir addr) [] where
  silent := .init dir
  requests := by simp [IdExchange.init]
  replies := by simp [IdExchange.init, IdExchange.replies, Server.init]
  taken := by simp [IdExchange.init]

/-- The server moves, entering the ids `new` for the client, and answers it with them. -/
lemma server {server : Server} {new : List ClientId} (h : IdInv s ids)
    (hsilent : Silent s.addr server)
    (hout : ∃ out, server.outbox = s.server.outbox ++ out ∧ ∀ p ∈ out, p.1 = s.addr →
      p.2 = .kicked ∨ ∃ m, ∃ id ∈ new, p.2 = .clientIdAck m id) :
    IdInv { s with server := server } (ids ++ new) := by
  obtain ⟨out, hout, hnew⟩ := hout
  have hreplies : IdExchange.replies { s with server := server }
      = s.replies ++ (out.filter (·.1 = s.addr)).map Prod.snd := by
    simp only [IdExchange.replies, hout, List.filter_append, List.map_append]
  refine ⟨hsilent, h.requests, ?_, ?_⟩
  · intro reply hreply
    rw [hreplies] at hreply
    rcases List.mem_append.mp hreply with hold | hsent
    · rcases h.replies reply hold with rfl | ⟨m, id, hid, rfl⟩
      · exact .inl rfl
      · exact .inr ⟨m, id, List.mem_append_left _ hid, rfl⟩
    · obtain ⟨p, hp, rfl⟩ := List.mem_map.mp hsent
      obtain ⟨hmem, haddr⟩ := List.mem_filter.mp hp
      rcases hnew p hmem (of_decide_eq_true haddr) with hkicked | ⟨m, id, hid, hack⟩
      · exact .inl hkicked
      · exact .inr ⟨m, id, List.mem_append_right _ hid, hack⟩
  · intro id hgot
    rw [hreplies]
    rcases h.taken id hgot with hid | ⟨hid, hkicked⟩
    · exact .inl (List.mem_append_left _ hid)
    · exact .inr ⟨hid, List.mem_append_left _ hkicked⟩

/-- The client moves, and takes an id only from what it was sent. -/
lemma client {requests : List Bytes} {phase : IdPhase} (h : IdInv s ids)
    (hrequests : ∀ d ∈ requests, ∃ pad, d = ClientIdRequest.datagram pad 1)
    (hphase : ∀ id, phase = .got id → id ∈ ids ∨ id = kickedId ∧ .kicked ∈ s.replies) :
    IdInv { s with requests := requests, phase := phase } ids where
  silent := h.silent
  requests := hrequests
  replies := h.replies
  taken := hphase

lemma not_got_again {retry : ℕ} {id : ClientId} : IdPhase.again retry ≠ .got id := by
  unfold IdPhase.again
  split_ifs <;> simp

lemma receive {retry k : ℕ} {reply : Reply} {unset : Unset} (h : IdInv s ids)
    (hk : s.replies[k]? = some reply) (id : ClientId)
    (hgot : IdPhase.receive retry (reply.datagram unset) = .got id) :
    id ∈ ids ∨ id = kickedId ∧ .kicked ∈ s.replies := by
  have hmem : reply ∈ s.replies := List.mem_of_getElem? hk
  rcases h.replies reply hmem with rfl | ⟨m, id', hid', rfl⟩
  · rw [receive_kicked] at hgot
    cases hgot
    exact .inr ⟨rfl, hmem⟩
  · rw [receive_clientIdAck] at hgot
    cases hgot
    exact .inl hid'

lemma step (h : IdInv s ids) (hstep : s.step a = some t) : IdInv t (ids ++ s.assigned a) := by
  cases a with
  | server b =>
    simp only [IdExchange.step] at hstep
    split_ifs at hstep with hsource
    obtain ⟨server, hserver, rfl⟩ := Option.map_eq_some_iff.mp hstep
    obtain ⟨hsilent, out, hout, hkicks⟩ := h.silent.step hsource hserver
    refine h.server hsilent ⟨out, hout, ?_⟩
    intro p hp haddr
    exact .inl (hkicks p hp haddr)
  | arrive k leftOver now newId =>
    obtain ⟨d, hk, hstep⟩ := Option.bind_eq_some_iff.mp hstep
    obtain ⟨server, hserver, rfl⟩ := Option.map_eq_some_iff.mp hstep
    obtain ⟨pad, hd⟩ := h.requests d (List.mem_of_getElem? hk)
    obtain ⟨hpc, hassigns, m, rfl⟩ := clientStep_clientIdRequest d hd hserver
    have hassigned : s.assigned (.arrive k leftOver now newId) = [newId] := by
      simp [IdExchange.assigned, IdExchange.serverActions, hk, hassigns]
    rw [hassigned]
    refine h.server ⟨h.silent.handling, h.silent.pending⟩ ⟨_, rfl, ?_⟩
    intro p hp _
    obtain rfl := List.mem_singleton.mp hp
    exact .inr ⟨m, newId, List.mem_singleton_self _, rfl⟩
  | send ok pad =>
    have hnone : s.assigned (.send ok pad) = [] := rfl
    rw [hnone, List.append_nil]
    simp only [IdExchange.step] at hstep
    split at hstep
    · split_ifs at hstep <;> cases hstep
      · refine h.client (List.forall_mem_append.mpr ⟨h.requests, ?_⟩) (by simp)
        exact List.forall_mem_singleton.mpr ⟨pad, rfl⟩
      · exact h.client h.requests fun id hgot => absurd hgot not_got_again
    · cases hstep
  | deliver k unset =>
    have hnone : s.assigned (.deliver k unset) = [] := rfl
    rw [hnone, List.append_nil]
    simp only [IdExchange.step] at hstep
    split at hstep
    · obtain ⟨reply, hk, rfl⟩ := Option.map_eq_some_iff.mp hstep
      exact h.client h.requests (h.receive hk)
    · cases hstep
  | recvFail =>
    have hnone : s.assigned .recvFail = [] := rfl
    rw [hnone, List.append_nil]
    simp only [IdExchange.step] at hstep
    split at hstep
    · cases hstep
      exact h.client h.requests fun id hgot => absurd hgot not_got_again
    · cases hstep

end IdInv

/-- In every run of the server with a client on an address of its own, requests and answers being
lost, reordered and duplicated, the id that `get_client_id` stores is one that the server entered
for this address, or it is part of the notice that an administrator had kicked a client there. -/
theorem client_id_assigned {dir : Bytes} {addr : SockAddr} {as : List IdAction} {s : IdExchange}
    {id : ClientId} (h : run IdExchange.step (.init dir addr) as = some s)
    (hgot : s.phase = .got id) :
    id ∈ trace IdExchange.step IdExchange.assigned (.init dir addr) as ∨
      id = kickedId ∧ .kicked ∈ s.replies := by
  have hinv : IdInv s (trace IdExchange.step IdExchange.assigned (.init dir addr) as) :=
    along_trace_invariant (I := IdInv) (C := fun _ _ => True) (.init dir addr)
      (fun _ _ _ _ hs _ hstep => hs.step hstep) (fun _ _ _ _ _ => trivial) h
  exact hinv.taken id hgot

/-- The first answer is lost, and the second try takes the notice that a kick of the first id
sends. -/
def kickRun : List IdAction :=
  let id : ClientId := Vector.replicate 16 1
  [.send true 0, .arrive 0 (List.replicate (BUFFER_SIZE - 8) 0) 0 id, .recvFail,
    .server (.kick id), .send true 0, .deliver 1 ⟨0, 0, Vector.replicate 16 0⟩]

theorem client_id_assigned_kickRun :
    ∃ s, run IdExchange.step (.init [] ⟨1, 1⟩) kickRun = some s ∧ s.phase = .got kickedId ∧
      (kickedId ∈ trace IdExchange.step IdExchange.assigned (.init [] ⟨1, 1⟩) kickRun ∨
        kickedId = kickedId ∧ .kicked ∈ s.replies) := by
  obtain ⟨s, hs, hgot⟩ := Option.map_eq_some_iff.mp
    (show (run IdExchange.step (.init [] ⟨1, 1⟩) kickRun).map IdExchange.phase
      = some (.got kickedId) by decide +kernel)
  exact ⟨s, hs, hgot, client_id_assigned hs hgot⟩

end Pcd
