import PcdProject.Core.StructStores
import PcdProject.Protocol.Replies
import PcdProject.Protocol.Requests

/-!
# The message structs of the server

The functions that answer a request or report on a job fill a local struct field by field and send
it as it is. Of a `JobResult` they leave out two fields, which show what the memory contains.
-/

namespace Pcd

open CLayout

/-- A local struct to which nothing is stored yet, in a frame with the given bytes. -/
def localStruct (frame : ℕ → UInt8) (fs : List Field) : Bytes := (List.range (sizeof fs)).map frame

namespace Reply

/-- The stores to the fields of the struct, in the order of the source. -/
def stores : Reply → List (ℕ × Bytes)
  | .clientIdAck messageId clientId =>
    [(0, [MessageType.clientIdAck.code]), (1, leBytes 4 messageId.toNat), (2, clientId.toList)]
  | .jobAck messageId jobId status msg =>
    [(0, [MessageType.jobAck.code]), (1, leBytes 4 messageId.toNat), (2, leBytes 4 jobId.toNat),
      (3, [status.code]), (4, leBytes 2 (cstr msg).length)]
  | .uploadAck messageId nameLen status ipAddress tcpPort _ =>
    [(0, [MessageType.uploadAck.code]), (1, leBytes 4 messageId.toNat),
      (2, leBytes 2 nameLen.toNat), (3, [status.code]), (4, leBytes 4 ipAddress.toNat),
      (5, leBytes 2 tcpPort.toNat)]
  | .downloadAck messageId status fileSize nameLen _ =>
    [(0, [MessageType.downloadAck.code]), (1, leBytes 4 messageId.toNat), (2, [status.code]),
      (3, leBytes 8 fileSize.toNat), (4, leBytes 2 nameLen.toNat)]
  | .jobResult jobId status msg =>
    [(0, [MessageType.jobResult.code]), (3, leBytes 4 jobId.toNat), (4, [status.code]),
      (5, leBytes 2 (cstr msg).length)]
  | .kicked => []

/-- The bytes that are passed to `sendto`. -/
def send (frame : ℕ → UInt8) (reply : Reply) : Bytes :=
  storeAll reply.layout (localStruct frame reply.layout) reply.stores ++ reply.string

/-- Every field of the struct is stored to. -/
def SetsAll (reply : Reply) : Prop := ∀ i < reply.layout.length, i ∈ reply.stores.map Prod.fst

end Reply

/-- The fields of a struct and the bytes behind it, without the padding. -/
def declared (fs : List Field) (d : Bytes) : List Bytes :=
  (List.range fs.length).map (fun i => slice fs i d) ++ [d.drop (sizeof fs)]

namespace Reply

variable {reply : Reply} {i : ℕ} {v : Bytes}

lemma stores_fit (reply : Reply) : StoresFit reply.layout reply.stores := by
  cases reply <;>
    simp [StoresFit, stores, layout, ClientIdResponse.layout, JobResponse.layout,
      UploadResponse.layout, DownloadResponse.layout, JobResult.layout, length_leBytes, u8, u16,
      u32, u64, bytes]

lemma stores_nodup (reply : Reply) : (reply.stores.map Prod.fst).Nodup := by
  cases reply <;> simp [stores]

lemma length_localStruct (frame : ℕ → UInt8) (fs : List Field) :
    (localStruct frame fs).length = sizeof fs := by
  simp [localStruct]

lemma length_storeAll_struct (frame : ℕ → UInt8) (reply : Reply) :
    (storeAll reply.layout (localStruct frame reply.layout) reply.stores).length
      = sizeof reply.layout :=
  (length_storeAll reply.layout_align reply.stores_fit (length_localStruct frame _).ge).trans
    (length_localStruct frame _)

lemma slice_send (frame : ℕ → UInt8) (reply : Reply) (i : ℕ) :
    slice reply.layout i (reply.send frame) = slice reply.layout i
      (storeAll reply.layout (localStruct frame reply.layout) reply.stores) := by
  apply slice_congr _ reply.layout_align le_rfl
  rw [send, List.take_append_of_le_length (length_storeAll_struct frame reply).ge]

/-- A field that is set has its value in the message. -/
lemma slice_send_of_mem (frame : ℕ → UInt8) (hmem : (i, v) ∈ reply.stores) :
    slice reply.layout i (reply.send frame) = v := by
  rw [slice_send]
  exact slice_storeAll_of_mem reply.layout_align reply.stores_fit (length_localStruct frame _).ge
    reply.stores_nodup hmem

/-- A field that is not set shows the memory. -/
lemma slice_send_of_notMem (frame : ℕ → UInt8) (hi : i < reply.layout.length)
    (hnot : i ∉ reply.stores.map Prod.fst) :
    slice reply.layout i (reply.send frame)
      = slice reply.layout i (localStruct frame reply.layout) := by
  rw [slice_send]
  exact slice_storeAll_of_notMem reply.layout_align reply.stores_fit
    (length_localStruct frame _).ge hi hnot

lemma drop_send (frame : ℕ → UInt8) (reply : Reply) :
    (reply.send frame).drop (sizeof reply.layout) = reply.string :=
  List.drop_left' (length_storeAll_struct frame reply)

lemma declared_send_of_setsAll (frame frame' : ℕ → UInt8) (hset : reply.SetsAll) :
    declared reply.layout (reply.send frame) = declared reply.layout (reply.send frame') := by
  have hfield : ∀ i ∈ List.range reply.layout.length,
      slice reply.layout i (reply.send frame) = slice reply.layout i (reply.send frame') := by
    intro i hi
    obtain ⟨⟨j, v⟩, hmem, rfl⟩ := List.mem_map.mp (hset i (List.mem_range.mp hi))
    rw [slice_send_of_mem frame hmem, slice_send_of_mem frame' hmem]
  rw [declared, declared, List.map_congr_left hfield, drop_send, drop_send]

/-- Only of a `JobResult` fields are left out. -/
lemma setsAll_iff (reply : Reply) :
    reply.SetsAll ↔ ∀ jobId status msg, reply ≠ .jobResult jobId status msg := by
  constructor
  · rintro hset jobId status msg rfl
    have hlt : 1 < JobResult.layout.length := by decide
    have hmem : 1 ∈ [0, 3, 4, 5] := hset 1 hlt
    exact absurd hmem (by decide)
  · intro h
    cases reply with
    | jobResult jobId status msg => exact absurd rfl (h jobId status msg)
    | clientIdAck | jobAck | uploadAck | downloadAck | kicked =>
      intro i hi
      simp only [layout, ClientIdResponse.layout, JobResponse.layout, UploadResponse.layout,
        DownloadResponse.layout, List.length_cons, List.length_nil] at hi
      simp only [stores, List.map_cons, List.map_nil, List.mem_cons, List.not_mem_nil, or_false]
      omega

end Reply

end Pcd
