import PcdProject.Protocol.Replies

/-!
# The datagrams of the Python client

What `VideoClient` packs and unpacks with `struct`. Under the `!` of its formats integers are
big-endian and nothing is padded. Strings are compared as bytes, in front of `decode`.
-/

namespace Pcd

namespace PyClient

open CLayout

/-- The `k` low bytes of `n` under `!`. -/
def beBytes (k n : ℕ) : Bytes := (leBytes k n).reverse

def beNat (bs : Bytes) : ℕ := leNat bs.reverse

/-- `data[i:j]` -/
def slice (data : Bytes) (i j : ℕ) : Bytes := (data.drop i).take (j - i)

/-! ### Requests -/

/-- The packet of `send_client_id_req`. -/
def clientIdReq (msgId : UInt32) : Bytes := [1] ++ beBytes 4 msgId.toNat

/-- The packet of `start_heartbeat`. -/
def heartbeat (clientId : ClientId) : Bytes := [3] ++ clientId.toList

/-- The packet of `create_job`. -/
def createJob (msgId : UInt32) (clientId : ClientId) (jobId : UInt32) (fileCount : UInt8)
    (cmd : Bytes) : Bytes :=
  [3] ++ beBytes 4 msgId.toNat ++ clientId.toList ++ beBytes 4 jobId.toNat ++ [fileCount]
    ++ beBytes 2 cmd.length ++ cmd

/-- The packet of `send_upload_request`. -/
def uploadRequest (msgId : UInt32) (clientId : ClientId) (jobId : UInt32) (fileSize : UInt64)
    (filename : Bytes) : Bytes :=
  [5] ++ beBytes 4 msgId.toNat ++ clientId.toList ++ beBytes 4 jobId.toNat
    ++ beBytes 8 fileSize.toNat ++ beBytes 1 filename.length ++ filename

/-- The packet of `send_download_request`. -/
def downloadRequest (msgId : UInt32) (clientId : ClientId) (jobId : UInt32) (filename : Bytes) :
    Bytes :=
  [6] ++ beBytes 4 msgId.toNat ++ clientId.toList ++ beBytes 4 jobId.toNat
    ++ beBytes 1 filename.length ++ filename

/-! ### Replies -/

/-- The argument of `recvfrom`. -/
def RECV_SIZE : ℕ := 1024

structure ClientIdAck where
  msgId : ℕ
  clientId : Bytes
  deriving DecidableEq

/-- `send_client_id_req` -/
def unpackClientIdAck (d : Bytes) : Option ClientIdAck :=
  let data := d.take RECV_SIZE
  if data.length ≥ 21 ∧ data.headD 0 = 2 then
    some ⟨beNat (slice data 1 5), slice data 5 21⟩
  else none

structure JobAck where
  msgType : UInt8
  msgId : ℕ
  jobId : ℕ
  status : UInt8
  message : Bytes
  deriving DecidableEq

/-- `create_job` -/
def unpackJobAck (d : Bytes) : Option JobAck :=
  let data := d.take RECV_SIZE
  if data.length ≥ 11 then
    some ⟨data.headD 0, beNat (slice data 1 5), beNat (slice data 5 9), data.getD 9 0,
      slice data 11 (11 + (data.getD 10 0).toNat)⟩
  else none

/-- What `send_upload_request` and `send_download_request` unpack. -/
structure TransferAck where
  msgType : UInt8
  msgId : ℕ
  filename : Bytes
  status : UInt8
  ip : ℕ
  port : ℕ
  deriving DecidableEq

/-- `send_upload_request` and `send_download_request`; the `unpack` behind the name fails unless it
gets seven bytes. -/
def unpackTransferAck (d : Bytes) : Option TransferAck :=
  let data := d.take RECV_SIZE
  let offset := 6 + (data.getD 5 0).toNat
  if data.length ≥ 10 ∧ data.length ≥ offset + 7 then
    some ⟨data.headD 0, beNat (slice data 1 5), slice data 6 offset, data.getD offset 0,
      beNat (slice data (offset + 1) (offset + 5)), beNat (slice data (offset + 5) (offset + 7))⟩
  else none

structure JobResult where
  jobId : ℕ
  status : UInt8
  message : Bytes
  deriving DecidableEq

/-- `listen_for_results` -/
def unpackJobResult (d : Bytes) : Option JobResult :=
  let data := d.take RECV_SIZE
  if data.headD 0 = 7 ∧ data.length ≥ 27 then
    some ⟨beNat (slice data 21 25), data.getD 25 0, slice data 27 (27 + (data.getD 26 0).toNat)⟩
  else none

/-! ### The transfer of a file -/

/-- A file with a basename and a size that the format of `send_file_tcp` takes. -/
structure File where
  name : Bytes
  content : Bytes
  name_lt : name.length < 2 ^ 32
  content_lt : content.length < 2 ^ 64

/-- `header` of `send_file_tcp`. -/
def fileHeader (clientId : ClientId) (jobId : UInt32) (file : File) : Bytes :=
  clientId.toList ++ beBytes 4 jobId.toNat ++ beBytes 4 file.name.length ++ file.name
    ++ beBytes 8 file.content.length

/-- The results of `f.read(4096)` until it is empty. -/
def readChunks (content : Bytes) : List Bytes :=
  if content = [] then [] else content.take 4096 :: readChunks (content.drop 4096)
termination_by content.length
decreasing_by
  have hpos : 0 < content.length := List.length_pos_iff.mpr ‹_›
  rw [List.length_drop]
  omega

/-- The bytes that `send_file_tcp` passes to `sendall`. -/
def sendFileTcp (clientId : ClientId) (jobId : UInt32) (file : File) : Bytes :=
  fileHeader clientId jobId file ++ (readChunks file.content).flatten

lemma flatten_readChunks (content : Bytes) : (readChunks content).flatten = content := by
  fun_induction readChunks content with
  | case1 => rfl
  | case2 content hne ih => rw [List.flatten_cons, ih, List.take_append_drop]

lemma sendFileTcp_eq (clientId : ClientId) (jobId : UInt32) (file : File) :
    sendFileTcp clientId jobId file = fileHeader clientId jobId file ++ file.content := by
  rw [sendFileTcp, flatten_readChunks]

end PyClient

end Pcd
