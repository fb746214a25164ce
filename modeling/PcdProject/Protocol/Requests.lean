import PcdProject.Protocol.Messages

/-!
# The requests that a client sends

The datagrams of `submit_job`, `upload_file` and `download_file`: a struct, with any bytes in its
padding, and the string behind it. The server reads back what the client wrote.
-/

namespace Pcd

open CLayout

def JobRequest.values (req : JobRequest) : List Bytes :=
  [[MessageType.jobReq.code], leBytes 4 req.messageId.toNat, req.clientId.toList,
    leBytes 4 req.jobId.toNat, leBytes 1 req.fileCount.toNat, leBytes 2 req.cmdLen.toNat]

def UploadRequest.values (req : UploadRequest) : List Bytes :=
  [[MessageType.uploadReq.code], leBytes 4 req.messageId.toNat, req.clientId.toList,
    leBytes 4 req.jobId.toNat, leBytes 8 req.fileSize.toNat, leBytes 2 req.nameLen.toNat]

def DownloadRequest.values (req : DownloadRequest) : List Bytes :=
  [[MessageType.downloadReq.code], leBytes 4 req.messageId.toNat, req.clientId.toList,
    leBytes 4 req.jobId.toNat, leBytes 2 req.nameLen.toNat]

def JobRequest.datagram (pad : UInt8) (req : JobRequest) (cmd : Bytes) : Bytes :=
  pack pad layout req.values ++ cmd

def UploadRequest.datagram (pad : UInt8) (req : UploadRequest) (filename : Bytes) : Bytes :=
  pack pad layout req.values ++ filename

def DownloadRequest.datagram (pad : UInt8) (req : DownloadRequest) (filename : Bytes) : Bytes :=
  pack pad layout req.values ++ filename

/-! ### Sizes -/

lemma JobRequest.fits (req : JobRequest) : Fits layout req.values := by
  simp [Fits, layout, values, length_leBytes, u8, u16, u32, bytes]

lemma UploadRequest.fits (req : UploadRequest) : Fits layout req.values := by
  simp [Fits, layout, values, length_leBytes, u8, u16, u32, u64, bytes]

lemma DownloadRequest.fits (req : DownloadRequest) : Fits layout req.values := by
  simp [Fits, layout, values, length_leBytes, u8, u16, u32, bytes]

/-! ### Reading back -/

lemma UInt8.ofNat_leBytes (x : UInt8) : UInt8.ofNat (leNat (leBytes 1 x.toNat)) = x := by
  have hlt : x.toNat < 256 ^ 1 := x.toNat_lt
  rw [leNat_leBytes, Nat.mod_eq_of_lt hlt, UInt8.ofNat_toNat]

lemma UInt16.ofNat_leBytes (x : UInt16) : UInt16.ofNat (leNat (leBytes 2 x.toNat)) = x := by
  have hlt : x.toNat < 256 ^ 2 := x.toNat_lt
  rw [leNat_leBytes, Nat.mod_eq_of_lt hlt, UInt16.ofNat_toNat]

lemma UInt32.ofNat_leBytes (x : UInt32) : UInt32.ofNat (leNat (leBytes 4 x.toNat)) = x := by
  have hlt : x.toNat < 256 ^ 4 := x.toNat_lt
  rw [leNat_leBytes, Nat.mod_eq_of_lt hlt, UInt32.ofNat_toNat]

lemma UInt64.ofNat_leBytes (x : UInt64) : UInt64.ofNat (leNat (leBytes 8 x.toNat)) = x := by
  have hlt : x.toNat < 256 ^ 8 := x.toNat_lt
  rw [leNat_leBytes, Nat.mod_eq_of_lt hlt, UInt64.ofNat_toNat]

lemma ClientId.ofBytes_toList (id : ClientId) : ClientId.ofBytes id.toList = id := by
  ext i hi
  simp [ClientId.ofBytes]

lemma JobRequest.read_struct {req : JobRequest} {d : Bytes} (hd : IsStruct layout req.values d)
    (rest : Bytes) : JobRequest.read (d ++ rest) = req := by
  have hslice : ∀ i, i < 6 → slice layout i (d ++ rest) = req.values.getD i [] := by
    intro i hi
    exact hd.slice_append (by decide) hi rest
  generalize d ++ rest = b at hslice ⊢
  simp [JobRequest.read, readU8, readU16, readU32, readClientId, hslice, values,
    UInt8.ofNat_leBytes, UInt16.ofNat_leBytes, UInt32.ofNat_leBytes, ClientId.ofBytes_toList]

lemma UploadRequest.read_struct {req : UploadRequest} {d : Bytes}
    (hd : IsStruct layout req.values d) (rest : Bytes) : UploadRequest.read (d ++ rest) = req := by
  have hslice : ∀ i, i < 6 → slice layout i (d ++ rest) = req.values.getD i [] := by
    intro i hi
    exact hd.slice_append (by decide) hi rest
  generalize d ++ rest = b at hslice ⊢
  simp [UploadRequest.read, readU16, readU32, readU64, readClientId, hslice, values,
    UInt16.ofNat_leBytes, UInt32.ofNat_leBytes, UInt64.ofNat_leBytes, ClientId.ofBytes_toList]

lemma DownloadRequest.read_struct {req : DownloadRequest} {d : Bytes}
    (hd : IsStruct layout req.values d) (rest : Bytes) :
    DownloadRequest.read (d ++ rest) = req := by
  have hslice : ∀ i, i < 5 → slice layout i (d ++ rest) = req.values.getD i [] := by
    intro i hi
    exact hd.slice_append (by decide) hi rest
  generalize d ++ rest = b at hslice ⊢
  simp [DownloadRequest.read, readU16, readU32, readClientId, hslice, values,
    UInt16.ofNat_leBytes, UInt32.ofNat_leBytes, ClientId.ofBytes_toList]

theorem JobRequest.read_datagram (pad : UInt8) (req : JobRequest) (rest : Bytes) :
    JobRequest.read (pack pad layout req.values ++ rest) = req :=
  read_struct (isStruct_pack pad (by decide) req.fits) rest

theorem UploadRequest.read_datagram (pad : UInt8) (req : UploadRequest) (rest : Bytes) :
    UploadRequest.read (pack pad layout req.values ++ rest) = req :=
  read_struct (isStruct_pack pad (by decide) req.fits) rest

theorem DownloadRequest.read_datagram (pad : UInt8) (req : DownloadRequest) (rest : Bytes) :
    DownloadRequest.read (pack pad layout req.values ++ rest) = req :=
  read_struct (isStruct_pack pad (by decide) req.fits) rest

end Pcd
