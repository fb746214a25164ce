import PcdProject.Client.Transfers
import PcdProject.Protocol.Replies
import PcdProject.Server.System

/-!
# The server and its clients

The server together with any number of transfers of clients, the datagrams on their way in both
directions, and a label on each TCP connection that says for which call it was opened. Datagrams
arrive in any order or never. Requests for transfers come from the calls, all other datagrams to
the server from anywhere.
-/

namespace Pcd

open Transition

/-- The call on whose behalf a datagram is sent. -/
inductive Origin where
  | upload (i : ℕ)
  | download (i : ℕ)
  | other
  deriving DecidableEq

/-- A datagram on its way to the server. -/
structure Packet where
  src : SockAddr
  bytes : Bytes
  origin : Origin

/-- A reply on its way to a client, with the origin of the request that it answers. -/
structure Answer where
  dst : SockAddr
  reply : Reply
  origin : Origin

/-- The request for which a client opened a connection to the upload port. -/
structure UploadLabel where
  clientId : ClientId
  jobId : UInt32
  filename : Bytes
  deriving DecidableEq

/-- The call for which a client opened a connection to the download port, and whether the datagram
that made it do so was the answer to its own request. -/
structure DownloadLabel where
  call : ℕ
  answered : Bool
  deriving DecidableEq

/-- `handling` is the origin of the last datagram that the server received, `downloadOrigins` those
of the jobs in `download_queue`, `serving` that of the job that `download_thread` took last. The
connections of other hosts to the download port have no label. -/
structure World where
  server : Server
  uploads : List UploadCall
  downloads : List DownloadCall
  toServer : List Packet
  toClients : List Answer
  handling : Origin
  downloadOrigins : List Origin
  serving : Origin
  uploadConns : List UploadLabel
  downloadConns : List (Option DownloadLabel)

inductive WorldAction where
  | server (a : Action)
  | deliver (k : ℕ) (leftOver : Bytes) (now : ℤ) (newId : ClientId)
  | inject (src : SockAddr) (d : Bytes)
  | uploadStart (call : UploadCall)
  | uploadSend (i : ℕ) (ok : Bool)
  | uploadTimeout (i : ℕ)
  | uploadAnswer (i k : ℕ) (unset : Unset)
  | uploadConnect (i : ℕ) (port : UInt16)
  | uploadReturn (i : ℕ) (success : Bool)
  | downloadStart (call : DownloadCall)
  | downloadSend (i : ℕ) (ok : Bool)
  | downloadAnswer (i k : ℕ) (unset : Unset)
  | downloadConnect (i : ℕ) (port : UInt16)
  | downloadReturn (i : ℕ)
  | foreignConnect (addr : SockAddr)

/-- The steps of the server that need nothing from the network. -/
def Action.internal : Action → Bool
  | .client (.receive ..) | .connectUpload _ | .connectDownload _ => false
  | _ => true

namespace World

def init (dir : Bytes) : World where
  server := .init dir
  uploads := []
  downloads := []
  toServer := []
  toClients := []
  handling := .other
  downloadOrigins := []
  serving := .other
  uploadConns := []
  downloadConns := []

/-- The step of the server in a step of the whole. -/
def serverAction (w : World) : WorldAction → Option Action
  | .server a => some a
  | .deliver k leftOver now newId =>
    (w.toServer[k]?).map fun p =>
      .client (.receive (p.bytes ++ leftOver) p.bytes.length p.src now newId)
  | .uploadConnect i port =>
    (w.uploads[i]?).map fun call =>
      .connectUpload ⟨w.uploadConns.length, ⟨call.addr.ip, port⟩⟩
  | .downloadConnect i port =>
    (w.downloads[i]?).map fun call =>
      .connectDownload ⟨w.downloadConns.length, ⟨call.addr.ip, port⟩⟩
  | .foreignConnect addr => some (.connectDownload ⟨w.downloadConns.length, addr⟩)
  | _ => none

def setUpload (w : World) (i : ℕ) (phase : UploadPhase) : World :=
  { w with uploads := w.uploads.modify i fun call => { call with phase := phase } }

def setDownload (w : World) (i : ℕ) (phase : DownloadPhase) : World :=
  { w with downloads := w.downloads.modify i fun call => { call with phase := phase } }

/-- The clients and the network in a step of the whole. -/
def clientSide (w : World) : WorldAction → Option World
  | .server a => if a.internal then some w else none
  | .deliver k _ _ _ =>
    (w.toServer[k]?).map fun p => { w with toServer := w.toServer.eraseIdx k, handling := p.origin }
  | .inject src d =>
    if d.headD 0 = MessageType.uploadReq.code ∨ d.headD 0 = MessageType.downloadReq.code then none
    else some { w with toServer := w.toServer ++ [⟨src, d, .other⟩] }
  | .uploadStart call =>
    if call.Begins then some { w with uploads := w.uploads ++ [call] } else none
  | .uploadSend i ok =>
    match w.uploads[i]? with
    | some ⟨addr, pad, req, filename, .sending attempt⟩ =>
      if ok ∧ attempt < MAX_RETRIES then
        let packet : Packet := ⟨addr, req.datagram pad filename, .upload i⟩
        some { w.setUpload i (.send attempt ok) with toServer := w.toServer ++ [packet] }
      else some (w.setUpload i (.send attempt ok))
    | _ => none
  | .uploadTimeout i =>
    match w.uploads[i]? with
    | some ⟨_, _, _, _, .waiting attempt⟩ => some (w.setUpload i (.sending (attempt + 1)))
    | _ => none
  | .uploadAnswer i k unset =>
    match w.uploads[i]?, w.toClients[k]? with
    | some ⟨addr, _, _, _, .waiting attempt⟩, some answer =>
      if answer.dst = addr then
        let phase := UploadPhase.answer attempt (answer.reply.datagram unset)
        some { w.setUpload i phase with toClients := w.toClients.eraseIdx k }
      else none
    | _, _ => none
  | .uploadConnect i _ =>
    match w.uploads[i]? with
    | some ⟨_, _, req, filename, .connecting⟩ =>
      let label : UploadLabel := ⟨req.clientId, req.jobId, filename⟩
      some { w.setUpload i .transferring with uploadConns := w.uploadConns ++ [label] }
    | _ => none
  | .uploadReturn i success =>
    match w.uploads[i]? with
    | some ⟨_, _, _, _, .connecting⟩   =>
      if success then none else some (w.setUpload i (.returned false))
    | some ⟨_, _, _, _, .transferring⟩ => some (w.setUpload i (.returned success))
    | _ => none
  | .downloadStart call =>
    if call.Begins then some { w with downloads := w.downloads ++ [call] } else none
  | .downloadSend i ok =>
    match w.downloads[i]? with
    | some ⟨addr, pad, req, filename, .sending⟩ =>
      if ok then
        let packet : Packet := ⟨addr, req.datagram pad filename, .download i⟩
        some { w.setDownload i .waiting with toServer := w.toServer ++ [packet] }
      else some (w.setDownload i .returned)
    | _ => none
  | .downloadAnswer i k unset =>
    match w.downloads[i]?, w.toClients[k]? with
    | some ⟨addr, _, _, _, .waiting⟩, some answer =>
      if answer.dst = addr then
        let phase := DownloadPhase.answer (answer.origin = .download i)
          (answer.reply.datagram unset)
        some { w.setDownload i phase with toClients := w.toClients.eraseIdx k }
      else none
    | _, _ => none
  | .downloadConnect i _ =>
    match w.downloads[i]? with
    | some ⟨_, _, _, _, .connecting answered⟩ =>
      let label : DownloadLabel := ⟨i, answered⟩
      some { w.setDownload i .transferring with downloadConns := w.downloadConns ++ [some label] }
    | _ => none
  | .downloadReturn i =>
    match w.downloads[i]? with
    | some ⟨_, _, _, _, .sending⟩ => none
    | some _ => some (w.setDownload i .returned)
    | none => none
  | .foreignConnect _ => some { w with downloadConns := w.downloadConns ++ [none] }

/-- The origins of the queued jobs and of the job that is served, after a step of the server. -/
def moveOrigins (w : World) (a : Action) : World :=
  match a with
  | .client (.enqueue _) =>
    match w.server.clientThread with
    | .downloadEnqueue _ _ _ => { w with downloadOrigins := w.downloadOrigins ++ [w.handling] }
    | _                      => w
  | .download .pop =>
    { w with
      downloadOrigins := w.downloadOrigins.tail
      serving := w.downloadOrigins.headD .other }
  | _ => w

/-- A step of the server; what it sends is on its way to the clients. -/
def serverStep (w : World) (a : Action) : Option World :=
  (w.server.step a).map fun s =>
    let origin : Origin := match a with
      | .client _ => w.handling
      | _         => .other
    let sent := s.outbox.drop w.server.outbox.length
    { w.moveOrigins a with
      server := s
      toClients := w.toClients ++ sent.map fun (dst, reply) => ⟨dst, reply, origin⟩ }

def step (w : World) (a : WorldAction) : Option World :=
  (w.clientSide a).bind fun w' =>
    match w.serverAction a with
    | none   => some w'
    | some b => w'.serverStep b

/-! ### What a step changes -/

variable {w w' t : World} {a : WorldAction}

/-- The clients and the network only add connections and do not touch the server. -/
structure ClientFrame (w w' : World) : Prop where
  server        : w'.server = w.server
  origins       : w'.downloadOrigins = w.downloadOrigins
  serving       : w'.serving = w.serving
  uploadConns   : w.uploadConns <+: w'.uploadConns
  downloadConns : w.downloadConns <+: w'.downloadConns

lemma ClientFrame.of_clientSide (h : w.clientSide a = some w') : ClientFrame w w' := by
  have same : ∀ {w' : World}, w'.server = w.server → w'.downloadOrigins = w.downloadOrigins →
      w'.serving = w.serving → w'.uploadConns = w.uploadConns →
      w'.downloadConns = w.downloadConns → ClientFrame w w' := by
    intro w' hs ho hg hu hd
    exact ⟨hs, ho, hg, hu ▸ List.prefix_refl _, hd ▸ List.prefix_refl _⟩
  cases a with
  | server a =>
    simp only [clientSide] at h
    split_ifs at h
    cases h
    exact same rfl rfl rfl rfl rfl
  | deliver k leftOver now newId =>
    obtain ⟨p, -, rfl⟩ := Option.map_eq_some_iff.mp h
    exact same rfl rfl rfl rfl rfl
  | inject src d | uploadStart call | downloadStart call =>
    simp only [clientSide] at h
    split_ifs at h
    cases h
    exact same rfl rfl rfl rfl rfl
  | uploadSend i ok | uploadAnswer i k unset | downloadSend i ok | downloadAnswer i k unset =>
    simp only [clientSide] at h
    split at h
    · split_ifs at h <;> cases h <;> exact same rfl rfl rfl rfl rfl
    · cases h
  | uploadTimeout i =>
    simp only [clientSide] at h
    split at h <;> cases h
    exact same rfl rfl rfl rfl rfl
  | uploadConnect i port =>
    simp only [clientSide] at h
    split at h <;> cases h
    exact ⟨rfl, rfl, rfl, List.prefix_append _ _, List.prefix_refl _⟩
  | uploadReturn i success =>
    simp only [clientSide] at h
    split at h
    · split_ifs at h
      cases h
      exact same rfl rfl rfl rfl rfl
    · cases h
      exact same rfl rfl rfl rfl rfl
    · cases h
  | downloadConnect i port =>
    simp only [clientSide] at h
    split at h <;> cases h
    exact ⟨rfl, rfl, rfl, List.prefix_refl _, List.prefix_append _ _⟩
  | downloadReturn i =>
    simp only [clientSide] at h
    split at h <;> cases h
    exact same rfl rfl rfl rfl rfl
  | foreignConnect addr =>
    cases h
    exact ⟨rfl, rfl, rfl, List.prefix_refl _, List.prefix_append _ _⟩

/-- A step of the whole is a step of the server or leaves the server as it is. -/
lemma step_cases (h : w.step a = some t) :
    (w.serverAction a = none ∧ ClientFrame w t) ∨
      ∃ b w', w.serverAction a = some b ∧ w.clientSide a = some w' ∧ ClientFrame w w' ∧
        w'.serverStep b = some t := by
  obtain ⟨w', hw', ht⟩ := Option.bind_eq_some_iff.mp h
  have hframe := ClientFrame.of_clientSide hw'
  cases hb : w.serverAction a with
  | none =>
    rw [hb] at ht
    exact .inl ⟨rfl, Option.some.inj ht ▸ hframe⟩
  | some b =>
    rw [hb] at ht
    exact .inr ⟨b, w', rfl, hw', hframe, ht⟩

lemma serverStep_server {b : Action} (h : w.serverStep b = some t) :
    w.server.step b = some t.server := by
  obtain ⟨s, hs, rfl⟩ := Option.map_eq_some_iff.mp h
  exact hs

lemma moveOrigins_conns (w : World) (b : Action) :
    (w.moveOrigins b).uploadConns = w.uploadConns ∧
      (w.moveOrigins b).downloadConns = w.downloadConns := by
  unfold moveOrigins
  split
  · split <;> exact ⟨rfl, rfl⟩
  · exact ⟨rfl, rfl⟩
  · exact ⟨rfl, rfl⟩

lemma serverStep_conns {b : Action} (h : w.serverStep b = some t) :
    t.uploadConns = w.uploadConns ∧ t.downloadConns = w.downloadConns := by
  obtain ⟨s, -, rfl⟩ := Option.map_eq_some_iff.mp h
  exact w.moveOrigins_conns b

/-- Connections are only added. -/
lemma step_conns (h : w.step a = some t) :
    w.uploadConns <+: t.uploadConns ∧ w.downloadConns <+: t.downloadConns := by
  rcases step_cases h with ⟨-, hframe⟩ | ⟨b, w', -, -, hframe, ht⟩
  · exact ⟨hframe.uploadConns, hframe.downloadConns⟩
  · obtain ⟨hu, hd⟩ := serverStep_conns ht
    exact ⟨hu ▸ hframe.uploadConns, hd ▸ hframe.downloadConns⟩

/-- Every run of the whole is a run of the server. -/
theorem run_server {dir : Bytes} {as : List WorldAction} (h : run step (.init dir) as = some w) :
    run Server.step (.init dir) (trace step (fun w a => (w.serverAction a).toList) (.init dir) as)
      = some w.server := by
  refine run_simulation (I := fun _ => True) World.server _ (fun _ _ _ _ _ => trivial) ?_ trivial h
  intro w a t _ h
  rcases step_cases h with ⟨hnone, hframe⟩ | ⟨b, w', hb, -, hframe, ht⟩
  · rw [hnone, hframe.server]
    rfl
  · have hstep := serverStep_server ht
    rw [hframe.server] at hstep
    simp [hb, hstep]

end World

end Pcd
