import PcdProject.Core.CLayout

/-!
# The wire protocol

The constants, message types, status codes and message structs of `protocol.h`. The C sources send
and receive the structs as they lie in memory, so that the offsets are those of natural alignment.
-/

namespace Pcd

open CLayout

abbrev Bytes := List UInt8

/-- The bytes of a C string literal. -/
def cstr (s : String) : Bytes := s.toList.map fun c => UInt8.ofNat c.toNat

/-- A string of C, without its terminator. -/
structure CString where
  bytes : Bytes
  notMem : 0 ∉ bytes

/-- `uint8_t client_id[16]` -/
abbrev ClientId := Vector UInt8 16

/-- `struct sockaddr_in` -/
structure SockAddr where
  ip : UInt32
  port : UInt16
  deriving DecidableEq, Repr

def SERVER_PORT : UInt16 := 5555
def HEARTBEAT_INTERVAL : ℤ := 10
def HEARTBEAT_TIMEOUT : ℤ := 30
def MAX_FILENAME_LEN : ℕ := 256
def MAX_CMD_LEN : ℕ := 1024

inductive MessageType where
  | clientIdReq | clientIdAck | heartbeat | jobReq | jobAck | uploadReq | uploadAck | jobResult
  | downloadReq | downloadAck
  deriving DecidableEq, Repr

def MessageType.code : MessageType → UInt8
  | .clientIdReq => 1
  | .clientIdAck => 2
  | .heartbeat   => 3
  | .jobReq      => 4
  | .jobAck      => 5
  | .uploadReq   => 6
  | .uploadAck   => 7
  | .jobResult   => 8
  | .downloadReq => 9
  | .downloadAck => 10

inductive StatusCode where
  | ok | error | invalidRequest | jobExists | uploadLimit | fileNotFound
  deriving DecidableEq, Repr

def StatusCode.code : StatusCode → UInt8
  | .ok             => 0
  | .error          => 1
  | .invalidRequest => 2
  | .jobExists      => 3
  | .uploadLimit    => 4
  | .fileNotFound   => 5

/-! ### Reading fields -/

def ClientId.ofBytes (bs : Bytes) : ClientId := Vector.ofFn fun i => bs.getD i 0

def readU8 (fs : List Field) (i : ℕ) (buffer : Bytes) : UInt8 :=
  UInt8.ofNat (leNat (slice fs i buffer))

def readU16 (fs : List Field) (i : ℕ) (buffer : Bytes) : UInt16 :=
  UInt16.ofNat (leNat (slice fs i buffer))

def readU32 (fs : List Field) (i : ℕ) (buffer : Bytes) : UInt32 :=
  UInt32.ofNat (leNat (slice fs i buffer))

def readU64 (fs : List Field) (i : ℕ) (buffer : Bytes) : UInt64 :=
  UInt64.ofNat (leNat (slice fs i buffer))

def readClientId (fs : List Field) (i : ℕ) (buffer : Bytes) : ClientId :=
  ClientId.ofBytes (slice fs i buffer)

/-! ### Requests, client to server -/

/-- Field 0 of every struct is the message type. -/
def ClientIdRequest.layout : List Field := [u8, u32]

def Heartbeat.layout : List Field := [u8, bytes 16]

structure JobRequest where
  messageId : UInt32
  clientId : ClientId
  jobId : UInt32
  fileCount : UInt8
  cmdLen : UInt16
  deriving DecidableEq, Repr

def JobRequest.layout : List Field := [u8, u32, bytes 16, u32, u8, u16]

def JobRequest.read (buffer : Bytes) : JobRequest where
  messageId := readU32 layout 1 buffer
  clientId := readClientId layout 2 buffer
  jobId := readU32 layout 3 buffer
  fileCount := readU8 layout 4 buffer
  cmdLen := readU16 layout 5 buffer

structure UploadRequest where
  messageId : UInt32
  clientId : ClientId
  jobId : UInt32
  fileSize : UInt64
  nameLen : UInt16
  deriving DecidableEq, Repr

def UploadRequest.layout : List Field := [u8, u32, bytes 16, u32, u64, u16]

def UploadRequest.read (buffer : Bytes) : UploadRequest where
  messageId := readU32 layout 1 buffer
  clientId := readClientId layout 2 buffer
  jobId := readU32 layout 3 buffer
  fileSize := readU64 layout 4 buffer
  nameLen := readU16 layout 5 buffer

structure DownloadRequest where
  messageId : UInt32
  clientId : ClientId
  jobId : UInt32
  nameLen : UInt16
  deriving DecidableEq, Repr

def DownloadRequest.layout : List Field := [u8, u32, bytes 16, u32, u16]

def DownloadRequest.read (buffer : Bytes) : DownloadRequest where
  messageId := readU32 layout 1 buffer
  clientId := readClientId layout 2 buffer
  jobId := readU32 layout 3 buffer
  nameLen := readU16 layout 4 buffer

/-! ### Replies, server to client -/

def ClientIdResponse.layout : List Field := [u8, u32, bytes 16]

def JobResponse.layout : List Field := [u8, u32, u32, u8, u16]

def UploadResponse.layout : List Field := [u8, u32, u16, u8, u32, u16]

def JobResult.layout : List Field := [u8, u32, bytes 16, u32, u8, u16]

def DownloadResponse.layout : List Field := [u8, u32, u8, u64, u16]

example : [ClientIdRequest.layout, Heartbeat.layout, JobRequest.layout, UploadRequest.layout,
    DownloadRequest.layout].map sizeof = [8, 17, 32, 48, 32] := by decide

example : [ClientIdResponse.layout, JobResponse.layout, UploadResponse.layout, JobResult.layout,
    DownloadResponse.layout].map sizeof = [24, 16, 20, 32, 32] := by decide

/-! ### The fields of a request depend on the bytes of its struct only -/

variable {n : ℕ} {b b' : Bytes}

lemma JobRequest.read_congr (hn : sizeof layout ≤ n) (h : b.take n = b'.take n) :
    JobRequest.read b = JobRequest.read b' := by
  have hslice := slice_congr layout (by decide) hn h
  simp only [JobRequest.read, readU8, readU16, readU32, readClientId, hslice]

lemma UploadRequest.read_congr (hn : sizeof layout ≤ n) (h : b.take n = b'.take n) :
    UploadRequest.read b = UploadRequest.read b' := by
  have hslice := slice_congr layout (by decide) hn h
  simp only [UploadRequest.read, readU16, readU32, readU64, readClientId, hslice]

lemma DownloadRequest.read_congr (hn : sizeof layout ≤ n) (h : b.take n = b'.take n) :
    DownloadRequest.read b = DownloadRequest.read b' := by
  have hslice := slice_congr layout (by decide) hn h
  simp only [DownloadRequest.read, readU16, readU32, readClientId, hslice]

end Pcd
