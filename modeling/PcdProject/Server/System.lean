import PcdProject.Server.ClientThread
import PcdProject.Server.UploadThread
import PcdProject.Server.ProcessingThread
import PcdProject.Server.DownloadThread

/-!
# The server as one system

All threads over the one state, with the sweeps of `watcher_thread`, the commands of the
administrator and the connections that arrive. A list of actions is one interleaving.
-/

namespace Pcd

inductive Action where
  | client (a : ClientAction)
  | worker (w : ℕ) (a : WorkerAction)
  | processing (a : ProcessingAction)
  | download (a : DownloadAction)
  | sweep (now : ℤ)
  | setMaxUploads (n : ℤ)
  | kick (id : ClientId)
  | connectUpload (conn : Connection)
  | connectDownload (conn : Connection)

namespace Server

def setMaxUploads (s : Server) (n : ℤ) : Server :=
  if n < 0 ∨ n > MAX_UPLOADS then s else { s with maxUploads := n }

def step (s : Server) : Action → Option Server
  | .client a             => s.clientStep a
  | .worker w a           => s.workerStep w a
  | .processing a         => s.processingStep a
  | .download a           => s.downloadStep a
  | .sweep now            =>
    some { s with clients := cleanupDeadClients HEARTBEAT_TIMEOUT now s.clients }
  | .setMaxUploads n      => some (s.setMaxUploads n)
  | .kick id              =>
    some { s with
      clients := kickClientById id s.clients
      outbox := s.outbox ++ kickNotice id s.clients }
  | .connectUpload conn   => some { s with uploadBacklog := s.uploadBacklog ++ [conn] }
  | .connectDownload conn => some { s with downloadBacklog := s.downloadBacklog ++ [conn] }

end Server

/-! ### What a step changes -/

inductive SystemRule (s : Server) : Action → Server → Prop where
  | client (a : ClientAction) (t : Server) (h : ClientRule s a t) : SystemRule s (.client a) t
  | worker (w : ℕ) (a : WorkerAction) (t : Server) (h : WorkerRule s w a t) :
      SystemRule s (.worker w a) t
  | processing (a : ProcessingAction) (t : Server) (h : ProcessingRule s a t) :
      SystemRule s (.processing a) t
  | download (a : DownloadAction) (t : Server) (h : DownloadRule s a t) :
      SystemRule s (.download a) t
  | sweep (now : ℤ) :
      SystemRule s (.sweep now)
        { s with clients := cleanupDeadClients HEARTBEAT_TIMEOUT now s.clients }
  | kick (id : ClientId) :
      SystemRule s (.kick id)
        { s with
          clients := kickClientById id s.clients
          outbox := s.outbox ++ kickNotice id s.clients }
  | limit (n : ℤ) (hn : 0 ≤ n ∧ n ≤ MAX_UPLOADS) :
      SystemRule s (.setMaxUploads n) { s with maxUploads := n }
  | limitIgnored (n : ℤ) (hn : n < 0 ∨ n > MAX_UPLOADS) : SystemRule s (.setMaxUploads n) s
  | connectUpload (conn : Connection) :
      SystemRule s (.connectUpload conn) { s with uploadBacklog := s.uploadBacklog ++ [conn] }
  | connectDownload (conn : Connection) :
      SystemRule s (.connectDownload conn)
        { s with downloadBacklog := s.downloadBacklog ++ [conn] }

lemma SystemRule.of_step {s t : Server} {a : Action} (h : s.step a = some t) :
    SystemRule s a t := by
  cases a with
  | client a => exact .client a t (.of_clientStep h)
  | worker w a => exact .worker w a t (.of_workerStep h)
  | processing a => exact .processing a t (.of_processingStep h)
  | download a => exact .download a t (.of_downloadStep h)
  | sweep now =>
    cases h
    exact .sweep now
  | kick id =>
    cases h
    exact .kick id
  | setMaxUploads n =>
    obtain rfl : s.setMaxUploads n = t := Option.some.inj h
    unfold Server.setMaxUploads
    split_ifs with hn
    · exact .limitIgnored n hn
    · exact .limit n (by omega)
  | connectUpload conn =>
    cases h
    exact .connectUpload conn
  | connectDownload conn =>
    cases h
    exact .connectDownload conn

end Pcd
