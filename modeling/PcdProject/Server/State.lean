import Mathlib.Algebra.Order.Ring.Rat
import Mathlib.Order.WithBot
import PcdProject.Core.BinaryFloat
import PcdProject.Protocol.Replies

/-!
# The state of the server

The global tables of the server, the control locations of its threads and the connections that
wait on its two listening sockets. The threads share everything else, the current working
directory of the process included.
-/

namespace Pcd

/-! ### Strings and paths -/

/-- The C string in a `char[size]` after `strncpy` and the store of the final zero, or after
`snprintf`. -/
def bounded (size : ℕ) (s : Bytes) : Bytes := s.take (size - 1)

def hexDigit (n : ℕ) : UInt8 := if n < 10 then UInt8.ofNat (48 + n) else UInt8.ofNat (87 + n)

/-- `%02x` -/
def hex02 (b : UInt8) : Bytes := [hexDigit (b.toNat / 16), hexDigit (b.toNat % 16)]

/-- `%08x` -/
def hex08 (n : UInt32) : Bytes :=
  (List.range 8).map fun i => hexDigit (n.toNat / 16 ^ (7 - i) % 16)

/-- `processing/%02x%02x_%08x` -/
def jobDirectory (clientId : ClientId) (jobId : UInt32) : Bytes :=
  cstr "processing/" ++ hex02 clientId[0] ++ hex02 clientId[1] ++ cstr "_" ++ hex08 jobId

/-- The two bytes of a client id that the name of a job directory contains. -/
def ClientId.leading (clientId : ClientId) : UInt8 × UInt8 := (clientId[0], clientId[1])

/-- `dir_path` of `create_job`, `process_upload` and `process_pending_jobs`. -/
def dirPath (clientId : ClientId) (jobId : UInt32) : Bytes :=
  bounded 256 (jobDirectory clientId jobId)

/-- `file_path` of `process_upload`. -/
def uploadPath (clientId : ClientId) (jobId : UInt32) (filename : Bytes) : Bytes :=
  bounded 512 (dirPath clientId jobId ++ cstr "/" ++ filename)

/-- `file_path` of `handle_download_request` and of `download_thread`. -/
def downloadPath (clientId : ClientId) (jobId : UInt32) (filename : Bytes) : Bytes :=
  bounded 512 (jobDirectory clientId jobId ++ cstr "/" ++ filename)

/-- The path that a relative `path` names when the working directory is `cwd`. -/
def resolve (cwd path : Bytes) : Bytes := cwd ++ cstr "/" ++ path

/-! ### Tables -/

structure ClientInfo where
  clientId : ClientId
  addr : SockAddr
  lastHeartbeat : ℤ
  deriving DecidableEq

structure PendingJob where
  clientId : ClientId
  clientAddr : SockAddr
  jobId : UInt32
  command : Bytes
  fileCount : ℕ
  filesReceived : ℕ
  lastUpdate : ℤ
  deriving DecidableEq

/-- The positive values of a `double`, with infinity. -/
abbrev Priority := WithTop ℚ

/-- `1.0 / (double)file_size`: the conversion and the division are both rounded to 53 digits. -/
def uploadPriority (fileSize : UInt64) : Priority :=
  if fileSize = 0 then ⊤
  else (BinaryFloat.round 53 (1 / BinaryFloat.round 53 fileSize.toNat) : ℚ)

structure UploadJob where
  clientId : ClientId
  jobId : UInt32
  filename : Bytes
  fileSize : UInt64
  arrivalTime : ℤ
  priority : Priority
  deriving DecidableEq

structure DownloadJob where
  clientId : ClientId
  jobId : UInt32
  filename : Bytes
  messageId : UInt32
  clientAddr : SockAddr
  deriving DecidableEq

/-- The pair under which `pending_jobs` is searched. -/
abbrev JobKey := ClientId × UInt32

def PendingJob.key (job : PendingJob) : JobKey := (job.clientId, job.jobId)

def UploadJob.key (job : UploadJob) : JobKey := (job.clientId, job.jobId)

/-! ### Threads -/

/-- A TCP connection: the number under which it was opened, and the address of the peer. Nothing
else is known of it on the server. -/
structure Connection where
  id : ℕ
  addr : SockAddr
  deriving DecidableEq, Repr

/-- `client_thread`: where it is in the handling of a datagram from `src`. -/
inductive ClientThread where
  | receiving
  | jobStat (req : JobRequest) (cmd : Bytes) (src : SockAddr)
  | jobMkdir (req : JobRequest) (cmd : Bytes) (src : SockAddr)
  | jobAppend (req : JobRequest) (cmd : Bytes) (src : SockAddr)
  | jobReply (req : JobRequest) (src : SockAddr) (success : Bool)
  | uploadEnqueue (req : UploadRequest) (filename : Bytes) (src : SockAddr)
  | uploadReply (req : UploadRequest) (filename : Bytes) (src : SockAddr)
  | downloadStat (req : DownloadRequest) (filename : Bytes) (src : SockAddr)
  | downloadChmod (req : DownloadRequest) (filename : Bytes) (src : SockAddr) (size : UInt64)
  | downloadReply (req : DownloadRequest) (filename : Bytes) (src : SockAddr) (size : UInt64)
  | downloadEnqueue (req : DownloadRequest) (filename : Bytes) (src : SockAddr)
  deriving DecidableEq

/-- `upload_thread_func` and `process_upload`: where a worker is, with `bytes_remaining` and
`total_received`. -/
inductive Worker where
  | waiting
  | picked (job : UploadJob)
  | accepting (job : UploadJob)
  | opening (job : UploadJob) (conn : Connection)
  | receiving (job : UploadJob) (conn : Connection) (remaining total : ℕ)
  | transferred (job : UploadJob) (remaining total : ℕ)
  | finished (job : UploadJob)
  deriving DecidableEq

/-- `processing_thread`: where it is in a pass of `process_pending_jobs`. From `scanning` to
`returning` it holds `jobs_mutex`. -/
inductive Processing where
  | sleeping
  | locking (originalDir : Bytes)
  | scanning (originalDir : Bytes) (i : ℕ)
  | entering (originalDir : Bytes) (i : ℕ)
  | running (originalDir : Bytes) (i : ℕ)
  | allocating (originalDir : Bytes) (i : ℕ) (status : StatusCode)
  | sending (originalDir : Bytes) (i : ℕ) (status : StatusCode)
  | removing (originalDir : Bytes) (i : ℕ)
  | returning (originalDir : Bytes) (i : ℕ)
  deriving DecidableEq

/-- `download_thread`: where it is in an iteration of its loop. -/
inductive DownloadThread where
  | accepting
  | waiting (conn : Connection)
  | verifying (conn : Connection) (job : DownloadJob)
  | opening (conn : Connection) (job : DownloadJob)
  | sending (conn : Connection) (job : DownloadJob)
  deriving DecidableEq

def Processing.holdsJobsMutex : Processing → Bool
  | .sleeping | .locking _ => false
  | _ => true

def MAX_UPLOADS : ℕ := 20

/-- The four tables that requests change. -/
structure Tables where
  clients : List ClientInfo
  pendingJobs : List PendingJob
  uploadQueue : List UploadJob
  downloadQueue : List DownloadJob

structure Server extends Tables where
  cwd : Bytes
  activeUploads : ℤ
  maxUploads : ℤ
  clientThread : ClientThread
  workers : List Worker
  processing : Processing
  downloadThread : DownloadThread
  uploadBacklog : List Connection
  downloadBacklog : List Connection
  outbox : List (SockAddr × Reply)

/-- The server when all threads are created, started in `dir`. -/
def Server.init (dir : Bytes) : Server where
  clients := []
  pendingJobs := []
  uploadQueue := []
  downloadQueue := []
  cwd := dir
  activeUploads := 0
  maxUploads := MAX_UPLOADS
  clientThread := .receiving
  workers := List.replicate MAX_UPLOADS .waiting
  processing := .sleeping
  downloadThread := .accepting
  uploadBacklog := []
  downloadBacklog := []
  outbox := []

end Pcd
