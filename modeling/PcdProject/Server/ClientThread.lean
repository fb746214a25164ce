import PcdProject.Core.Transition
import PcdProject.Server.UdpMessage

/-!
# The thread that handles datagrams

`client_thread` in steps: between two of them the other threads may move. Without interruption the
steps amount to `handleUdpMessage`.
-/

namespace Pcd

open Transition

/-- A step of `client_thread`, with what the system decides in it. -/
inductive ClientAction where
  | receive (buffer : Bytes) (n : ℕ) (src : SockAddr) (now : ℤ) (newId : ClientId)
  | stat (info : Option StatInfo)
  | mkdir (ok : Bool)
  | append (reallocOk : Bool) (now : ℤ)
  | reply (mallocOk : Bool)
  | enqueue (now : ℤ)
  | chmod (ok : Bool)

namespace Server

def send (s : Server) (dst : SockAddr) (reply : Reply) : Server :=
  { s with outbox := s.outbox ++ [(dst, reply)] }

/-- The switch of `handle_udp_message`. -/
def dispatch (s : Server) (src : SockAddr) (now : ℤ) (newId : ClientId) :
    Option Request → Server
  | none                       => s
  | some (.clientId messageId) =>
    { s with clients := registerClient s.clients newId src now }.send src
      (.clientIdAck messageId newId)
  | some (.heartbeat id)       => { s with clients := updateHeartbeat s.clients id src now }
  | some (.job req cmd)        => { s with clientThread := .jobStat req cmd src }
  | some (.upload req name)    => { s with clientThread := .uploadEnqueue req name src }
  | some (.download req name)  => { s with clientThread := .downloadStat req name src }

/-- A step of `client_thread`; `none` if it is not at this step or `jobs_mutex` is held. -/
def clientStep (s : Server) (a : ClientAction) : Option Server :=
  match s.clientThread, a with
  | .receiving, .receive buffer n src now newId =>
    if buffer.length = BUFFER_SIZE ∧ n ≤ BUFFER_SIZE then
      some (s.dispatch src now newId (readRequest buffer n))
    else none
  | .jobStat req cmd src, .stat info =>
    match info with
    | some info =>
      if info.isDir then some { s with clientThread := .jobAppend req cmd src }
      else some { s with clientThread := .jobReply req src false }
    | none      => some { s with clientThread := .jobMkdir req cmd src }
  | .jobMkdir req cmd src, .mkdir ok =>
    if ok then some { s with clientThread := .jobAppend req cmd src }
    else some { s with clientThread := .jobReply req src false }
  | .jobAppend req cmd src, .append reallocOk now =>
    if s.processing.holdsJobsMutex then none
    else if reallocOk then
      some { s with
        pendingJobs := s.pendingJobs ++ [.create req cmd src now]
        clientThread := .jobReply req src true }
    else some { s with clientThread := .jobReply req src false }
  | .jobReply req src success, .reply mallocOk =>
    if mallocOk then some ({ s with clientThread := .receiving }.send src (jobAck req success))
    else some { s with clientThread := .receiving }
  | .uploadEnqueue req name src, .enqueue now =>
    some { s with
      uploadQueue := Pcd.enqueueUpload s.uploadQueue (.create req name now)
      clientThread := .uploadReply req name src }
  | .uploadReply req name src, .reply _ =>
    some ({ s with clientThread := .receiving }.send src (uploadAck req name src))
  | .downloadStat req name src, .stat info =>
    match info with
    | some info => some { s with clientThread := .downloadChmod req name src info.size }
    | none      =>
      some ({ s with clientThread := .receiving }.send src (downloadAck req name none))
  | .downloadChmod req name src size, .chmod _ =>
    some { s with clientThread := .downloadReply req name src size }
  | .downloadReply req name src size, .reply _ =>
    some ({ s with clientThread := .downloadEnqueue req name src }.send src
      (downloadAck req name (some size)))
  | .downloadEnqueue req name src, .enqueue _ =>
    some { s with
      downloadQueue := s.downloadQueue ++ [.create req name src]
      clientThread := .receiving }
  | _, _ => none

end Server

/-- The branches of `clientStep`. -/
inductive ClientBranch (s : Server) : ClientAction → Server → Prop where
  | receive (buffer : Bytes) (n : ℕ) (src : SockAddr) (now : ℤ) (newId : ClientId)
      (hpc : s.clientThread = .receiving)
      (hsize : buffer.length = BUFFER_SIZE ∧ n ≤ BUFFER_SIZE) :
      ClientBranch s (.receive buffer n src now newId)
        (s.dispatch src now newId (readRequest buffer n))
  | isDirectory (info : StatInfo) (req : JobRequest) (cmd : Bytes) (src : SockAddr)
      (hpc : s.clientThread = .jobStat req cmd src) (hdir : info.isDir = true) :
      ClientBranch s (.stat (some info)) { s with clientThread := .jobAppend req cmd src }
  | notDirectory (info : StatInfo) (req : JobRequest) (cmd : Bytes) (src : SockAddr)
      (hpc : s.clientThread = .jobStat req cmd src) (hdir : info.isDir = false) :
      ClientBranch s (.stat (some info)) { s with clientThread := .jobReply req src false }
  | missing (req : JobRequest) (cmd : Bytes) (src : SockAddr)
      (hpc : s.clientThread = .jobStat req cmd src) :
      ClientBranch s (.stat none) { s with clientThread := .jobMkdir req cmd src }
  | mkdir (req : JobRequest) (cmd : Bytes) (src : SockAddr)
      (hpc : s.clientThread = .jobMkdir req cmd src) :
      ClientBranch s (.mkdir true) { s with clientThread := .jobAppend req cmd src }
  | mkdirFail (req : JobRequest) (cmd : Bytes) (src : SockAddr)
      (hpc : s.clientThread = .jobMkdir req cmd src) :
      ClientBranch s (.mkdir false) { s with clientThread := .jobReply req src false }
  | append (req : JobRequest) (cmd : Bytes) (src : SockAddr) (now : ℤ)
      (hpc : s.clientThread = .jobAppend req cmd src)
      (hfree : s.processing.holdsJobsMutex = false) :
      ClientBranch s (.append true now)
        { s with
          pendingJobs := s.pendingJobs ++ [.create req cmd src now]
          clientThread := .jobReply req src true }
  | appendFail (req : JobRequest) (cmd : Bytes) (src : SockAddr) (now : ℤ)
      (hpc : s.clientThread = .jobAppend req cmd src)
      (hfree : s.processing.holdsJobsMutex = false) :
      ClientBranch s (.append false now) { s with clientThread := .jobReply req src false }
  | jobReply (req : JobRequest) (src : SockAddr) (success : Bool)
      (hpc : s.clientThread = .jobReply req src success) :
      ClientBranch s (.reply true)
        ({ s with clientThread := .receiving }.send src (jobAck req success))
  | jobReplyFail (req : JobRequest) (src : SockAddr) (success : Bool)
      (hpc : s.clientThread = .jobReply req src success) :
      ClientBranch s (.reply false) { s with clientThread := .receiving }
  | enqueueUpload (req : UploadRequest) (name : Bytes) (src : SockAddr) (now : ℤ)
      (hpc : s.clientThread = .uploadEnqueue req name src) :
      ClientBranch s (.enqueue now)
        { s with
          uploadQueue := Pcd.enqueueUpload s.uploadQueue (.create req name now)
          clientThread := .uploadReply req name src }
  | uploadReply (mallocOk : Bool) (req : UploadRequest) (name : Bytes) (src : SockAddr)
      (hpc : s.clientThread = .uploadReply req name src) :
      ClientBranch s (.reply mallocOk)
        ({ s with clientThread := .receiving }.send src (uploadAck req name src))
  | downloadStat (info : StatInfo) (req : DownloadRequest) (name : Bytes) (src : SockAddr)
      (hpc : s.clientThread = .downloadStat req name src) :
      ClientBranch s (.stat (some info))
        { s with clientThread := .downloadChmod req name src info.size }
  | downloadMissing (req : DownloadRequest) (name : Bytes) (src : SockAddr)
      (hpc : s.clientThread = .downloadStat req name src) :
      ClientBranch s (.stat none)
        ({ s with clientThread := .receiving }.send src (downloadAck req name none))
  | downloadChmod (ok : Bool) (req : DownloadRequest) (name : Bytes) (src : SockAddr)
      (size : UInt64) (hpc : s.clientThread = .downloadChmod req name src size) :
      ClientBranch s (.chmod ok) { s with clientThread := .downloadReply req name src size }
  | downloadReply (mallocOk : Bool) (req : DownloadRequest) (name : Bytes) (src : SockAddr)
      (size : UInt64) (hpc : s.clientThread = .downloadReply req name src size) :
      ClientBranch s (.reply mallocOk)
        ({ s with clientThread := .downloadEnqueue req name src }.send src
          (downloadAck req name (some size)))
  | enqueueDownload (req : DownloadRequest) (name : Bytes) (src : SockAddr) (now : ℤ)
      (hpc : s.clientThread = .downloadEnqueue req name src) :
      ClientBranch s (.enqueue now)
        { s with
          downloadQueue := s.downloadQueue ++ [.create req name src]
          clientThread := .receiving }

lemma ClientBranch.of_clientStep {s t : Server} {a : ClientAction} (h : s.clientStep a = some t) :
    ClientBranch s a t := by
  unfold Server.clientStep at h
  split at h
  case h_1 buffer n src now newId hpc =>
    split_ifs at h with hsize
    cases h
    exact .receive buffer n src now newId hpc hsize
  case h_2 req cmd src info hpc =>
    split at h
    · split_ifs at h with hdir <;> cases h
      · exact .isDirectory _ req cmd src hpc hdir
      · exact .notDirectory _ req cmd src hpc (by simpa using hdir)
    · cases h
      exact .missing req cmd src hpc
  case h_3 req cmd src ok hpc =>
    cases ok <;> cases h
    · exact .mkdirFail req cmd src hpc
    · exact .mkdir req cmd src hpc
  case h_4 req cmd src reallocOk now hpc =>
    split_ifs at h with hheld hok <;> cases h
    · subst hok
      exact .append req cmd src now hpc (by simpa using hheld)
    · obtain rfl : reallocOk = false := by simpa using hok
      exact .appendFail req cmd src now hpc (by simpa using hheld)
  case h_5 req src success mallocOk hpc =>
    cases mallocOk <;> cases h
    · exact .jobReplyFail req src success hpc
    · exact .jobReply req src success hpc
  case h_6 req name src now hpc =>
    cases h
    exact .enqueueUpload req name src now hpc
  case h_7 req name src mallocOk hpc =>
    cases h
    exact .uploadReply mallocOk req name src hpc
  case h_8 req name src info hpc =>
    split at h <;> cases h
    · exact .downloadStat _ req name src hpc
    · exact .downloadMissing req name src hpc
  case h_9 req name src size ok hpc =>
    cases h
    exact .downloadChmod ok req name src size hpc
  case h_10 req name src size mallocOk hpc =>
    cases h
    exact .downloadReply mallocOk req name src size hpc
  case h_11 req name src now hpc =>
    cases h
    exact .enqueueDownload req name src now hpc
  case h_12 => cases h

/-! ### What a step changes -/

/-- The actions that insert into one of the three job tables. -/
def ClientAction.inserts : ClientAction → Bool
  | .append reallocOk _ => reallocOk
  | .enqueue _          => true
  | _                   => false

/-- The steps of `client_thread`, those that change only its own location and send replies merged
into `move`. -/
inductive ClientRule (s : Server) : ClientAction → Server → Prop where
  | move (a : ClientAction) (pc : ClientThread) (out : List (SockAddr × Reply))
      (hquiet : a.inserts = false) :
      ClientRule s a { s with clientThread := pc, outbox := s.outbox ++ out }
  | clients (a : ClientAction) (clients : List ClientInfo) (out : List (SockAddr × Reply))
      (hquiet : a.inserts = false) :
      ClientRule s a { s with clients := clients, outbox := s.outbox ++ out }
  | appendJob (req : JobRequest) (cmd : Bytes) (src : SockAddr) (now : ℤ)
      (hpc : s.clientThread = .jobAppend req cmd src)
      (hfree : s.processing.holdsJobsMutex = false) :
      ClientRule s (.append true now)
        { s with
          pendingJobs := s.pendingJobs ++ [.create req cmd src now]
          clientThread := .jobReply req src true }
  | enqueueUpload (req : UploadRequest) (name : Bytes) (src : SockAddr) (now : ℤ)
      (hpc : s.clientThread = .uploadEnqueue req name src) :
      ClientRule s (.enqueue now)
        { s with
          uploadQueue := Pcd.enqueueUpload s.uploadQueue (.create req name now)
          clientThread := .uploadReply req name src }
  | enqueueDownload (req : DownloadRequest) (name : Bytes) (src : SockAddr) (now : ℤ)
      (hpc : s.clientThread = .downloadEnqueue req name src) :
      ClientRule s (.enqueue now)
        { s with
          downloadQueue := s.downloadQueue ++ [.create req name src]
          clientThread := .receiving }

namespace ClientRule

variable {s t : Server} {a : ClientAction}

lemma goto (a : ClientAction) (pc : ClientThread) (hquiet : a.inserts = false) :
    ClientRule s a { s with clientThread := pc } := by
  simpa using move (s := s) a pc [] hquiet

lemma of_dispatch (a : ClientAction) (src : SockAddr) (now : ℤ) (newId : ClientId)
    (req : Option Request) (hquiet : a.inserts = false) :
    ClientRule s a (s.dispatch src now newId req) := by
  cases req with
  | none => exact goto a s.clientThread hquiet
  | some req =>
    cases req with
    | clientId messageId => exact clients a _ [_] hquiet
    | heartbeat id => simpa [Server.dispatch] using clients (s := s) a _ [] hquiet
    | job req cmd => exact goto a _ hquiet
    | upload req name => exact goto a _ hquiet
    | download req name => exact goto a _ hquiet

lemma of_clientStep (h : s.clientStep a = some t) : ClientRule s a t := by
  cases ClientBranch.of_clientStep h with
  | receive => exact of_dispatch _ _ _ _ _ rfl
  | append req cmd src now hpc hfree => exact appendJob req cmd src now hpc hfree
  | enqueueUpload req name src now hpc => exact enqueueUpload req name src now hpc
  | enqueueDownload req name src now hpc => exact enqueueDownload req name src now hpc
  | jobReply | uploadReply | downloadMissing | downloadReply => exact move _ _ [_] rfl
  | _ => exact goto _ _ rfl

end ClientRule

/-! ### What comes from a datagram -/

/-- The filename of the request that is handled. -/
def ClientThread.filename : ClientThread → Option Bytes
  | .uploadEnqueue _ name _ | .uploadReply _ name _ | .downloadStat _ name _
  | .downloadChmod _ name _ _ | .downloadReply _ name _ _ | .downloadEnqueue _ name _ => some name
  | _ => none

def ClientAction.receives : ClientAction → Bool
  | .receive _ _ _ _ _ => true
  | _                  => false

/-- A step hands a datagram to the switch, or it leaves the table of the clients alone and takes up
no filename. -/
inductive DatagramRule (s : Server) : ClientAction → Server → Prop where
  | receive (buffer : Bytes) (n : ℕ) (src : SockAddr) (now : ℤ) (newId : ClientId) :
      DatagramRule s (.receive buffer n src now newId)
        (s.dispatch src now newId (readRequest buffer n))
  | goOn (a : ClientAction) (t : Server) (ha : a.receives = false) (hclients : t.clients = s.clients)
      (hname : t.clientThread.filename = none ∨
        t.clientThread.filename = s.clientThread.filename) :
      DatagramRule s a t

lemma DatagramRule.of_clientStep {s t : Server} {a : ClientAction} (h : s.clientStep a = some t) :
    DatagramRule s a t := by
  cases ClientBranch.of_clientStep h with
  | receive => exact .receive _ _ _ _ _
  | enqueueUpload req name src now hpc => exact .goOn _ _ rfl rfl (.inr (by rw [hpc]; rfl))
  | downloadStat info req name src hpc => exact .goOn _ _ rfl rfl (.inr (by rw [hpc]; rfl))
  | downloadChmod ok req name src size hpc => exact .goOn _ _ rfl rfl (.inr (by rw [hpc]; rfl))
  | downloadReply ok req name src size hpc => exact .goOn _ _ rfl rfl (.inr (by rw [hpc]; rfl))
  | _ => exact .goOn _ _ rfl rfl (.inl rfl)

/-! ### Without interruption -/

/-- The steps that handle a request when `env` decides. -/
def ClientAction.ofRequest (env : Env) : Request → List ClientAction
  | .clientId _ | .heartbeat _ => []
  | .job req _ =>
    let dir := dirPath req.clientId req.jobId
    let enter : List ClientAction :=
      match env.stat dir with
      | some info => if info.isDir then [.append env.reallocOk env.now] else []
      | none      =>
        .mkdir (env.mkdir dir) :: if env.mkdir dir then [.append env.reallocOk env.now] else []
    .stat (env.stat dir) :: enter ++ [.reply env.mallocOk]
  | .upload _ _ => [.enqueue env.now, .reply true]
  | .download req name =>
    let path := downloadPath req.clientId req.jobId name
    match env.stat path with
    | some info => [.stat (some info), .chmod true, .reply true, .enqueue env.now]
    | none      => [.stat none]

/-- The steps for the datagram of `n` bytes in `buffer`. -/
def ClientAction.ofDatagram (env : Env) (src : SockAddr) (buffer : Bytes) (n : ℕ) :
    List ClientAction :=
  .receive buffer n src env.now env.newId ::
    (readRequest buffer n).elim [] (ClientAction.ofRequest env)

section Uninterrupted

variable {s : Server} {req : JobRequest} {cmd : Bytes} {src : SockAddr}

lemma run_jobReply {success : Bool} (hpc : s.clientThread = .jobReply req src success)
    (mallocOk : Bool) :
    run Server.clientStep s [.reply mallocOk] =
      some { s with
        clientThread := .receiving
        outbox := s.outbox ++ if mallocOk then [(src, jobAck req success)] else [] } := by
  cases mallocOk <;> simp [Server.clientStep, Server.send, hpc]

lemma run_jobAppend (hpc : s.clientThread = .jobAppend req cmd src)
    (hfree : s.processing.holdsJobsMutex = false) (reallocOk mallocOk : Bool) (now : ℤ) :
    run Server.clientStep s [.append reallocOk now, .reply mallocOk] =
      some { s with
        pendingJobs := s.pendingJobs ++ if reallocOk then [.create req cmd src now] else []
        clientThread := .receiving
        outbox := s.outbox ++ if mallocOk then [(src, jobAck req reallocOk)] else [] } := by
  have happend : s.clientStep (.append reallocOk now) =
      some { s with
        pendingJobs := s.pendingJobs ++ if reallocOk then [.create req cmd src now] else []
        clientThread := .jobReply req src reallocOk } := by
    cases reallocOk <;> simp [Server.clientStep, hpc, hfree]
  rw [run_cons, happend]
  exact run_jobReply rfl mallocOk

/-- `create_job` and the reply. -/
lemma run_job (env : Env) (hpc : s.clientThread = .jobStat req cmd src)
    (hfree : s.processing.holdsJobsMutex = false) :
    run Server.clientStep s (ClientAction.ofRequest env (.job req cmd)) =
      some { s with
        pendingJobs := (createJob env src req cmd s.pendingJobs).1
        clientThread := .receiving
        outbox := s.outbox ++ if env.mallocOk
          then [(src, jobAck req (createJob env src req cmd s.pendingJobs).2)] else [] } := by
  simp only [ClientAction.ofRequest, createJob, List.cons_append, run_cons]
  cases env.stat (dirPath req.clientId req.jobId) with
  | some info =>
    obtain ⟨isDir, size⟩ := info
    cases isDir with
    | true =>
      have hstep : s.clientStep (.stat (some ⟨true, size⟩))
          = some { s with clientThread := .jobAppend req cmd src } := by
        simp [Server.clientStep, hpc]
      rw [hstep, Option.bind_some]
      refine (run_jobAppend (s := { s with clientThread := .jobAppend req cmd src }) rfl
        hfree _ _ _).trans ?_
      cases env.reallocOk <;> simp
    | false =>
      have hstep : s.clientStep (.stat (some ⟨false, size⟩))
          = some { s with clientThread := .jobReply req src false } := by
        simp [Server.clientStep, hpc]
      rw [hstep, Option.bind_some]
      refine (run_jobReply (s := { s with clientThread := .jobReply req src false })
        rfl _).trans ?_
      simp
  | none =>
    have hstep : s.clientStep (.stat none)
        = some { s with clientThread := .jobMkdir req cmd src } := by
      simp [Server.clientStep, hpc]
    rw [hstep, Option.bind_some]
    cases env.mkdir (dirPath req.clientId req.jobId) with
    | true =>
      refine (run_jobAppend (s := { s with clientThread := .jobAppend req cmd src }) rfl
        hfree _ _ _).trans ?_
      cases env.reallocOk <;> simp
    | false =>
      refine (run_jobReply (s := { s with clientThread := .jobReply req src false })
        rfl _).trans ?_
      simp

end Uninterrupted

/-- Handled without interruption, a datagram has the effect of `handle_udp_message`. -/
theorem run_clientStep_ofDatagram (env : Env) (src : SockAddr) (buffer : Bytes) (n : ℕ)
    (s : Server) (hlen : buffer.length = BUFFER_SIZE) (hn : n ≤ BUFFER_SIZE)
    (hpc : s.clientThread = .receiving) (hfree : s.processing.holdsJobsMutex = false) :
    run Server.clientStep s (ClientAction.ofDatagram env src buffer n) =
      some { s with
        toTables := (handleUdpMessage env src s.toTables buffer n).1
        outbox := s.outbox ++
          (handleUdpMessage env src s.toTables buffer n).2.toList.map (src, ·) } := by
  have hrecv : s.clientStep (.receive buffer n src env.now env.newId)
      = some (s.dispatch src env.now env.newId (readRequest buffer n)) := by
    simp [Server.clientStep, hpc, hlen, hn]
  rw [ClientAction.ofDatagram, run_cons, hrecv, Option.bind_some]
  unfold handleUdpMessage
  cases readRequest buffer n with
  | none => simp [Server.dispatch]
  | some req =>
    cases req with
    | clientId messageId => simp [Server.dispatch, Server.send, ClientAction.ofRequest]
    | heartbeat id => simp [Server.dispatch, ClientAction.ofRequest]
    | job req cmd =>
      rw [Option.elim_some]
      refine (run_job env (s := s.dispatch src env.now env.newId (some (.job req cmd))) rfl
        hfree).trans ?_
      cases env.mallocOk <;> simp [Server.dispatch, hpc]
    | upload req name =>
      simp [Server.dispatch, Server.clientStep, Server.send, ClientAction.ofRequest,
        handleUploadRequest, hpc]
    | download req name =>
      simp only [Option.elim_some, ClientAction.ofRequest, handleDownloadRequest]
      cases env.stat (downloadPath req.clientId req.jobId name) with
      | some info => simp [Server.dispatch, Server.clientStep, Server.send, hpc]
      | none => simp [Server.dispatch, Server.clientStep, Server.send, hpc]

end Pcd
