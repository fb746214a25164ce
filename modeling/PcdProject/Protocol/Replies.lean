import PcdProject.Protocol.Messages

/-!
# The replies of the server

What the server sets in the datagrams that it sends, and the datagrams themselves.
-/

namespace Pcd

open CLayout

/-- The fields that the server sets in the datagrams that it sends. A `JobResult` has a message id
and a client id that it leaves unset, and the notice of `kick_client_by_id` is a text without a
struct. -/
inductive Reply where
  | clientIdAck (messageId : UInt32) (clientId : ClientId)
  | jobAck (messageId jobId : UInt32) (status : StatusCode) (msg : String)
  | uploadAck (messageId : UInt32) (nameLen : UInt16) (status : StatusCode) (ipAddress : UInt32)
      (tcpPort : UInt16) (filename : Bytes)
  | downloadAck (messageId : UInt32) (status : StatusCode) (fileSize : UInt64) (nameLen : UInt16)
      (filename : Bytes)
  | jobResult (jobId : UInt32) (status : StatusCode) (msg : String)
  | kicked
  deriving DecidableEq, Repr

/-- The bytes that a C sender leaves as they are: the padding of the struct and fields that it does
not set. -/
structure Unset where
  pad : UInt8
  messageId : UInt32
  clientId : ClientId

/-- The datagram of a reply: the struct and the string behind it. -/
def Reply.datagram (unset : Unset) : Reply → Bytes
  | .clientIdAck messageId clientId =>
    pack unset.pad ClientIdResponse.layout
      [[MessageType.clientIdAck.code], leBytes 4 messageId.toNat, clientId.toList]
  | .jobAck messageId jobId status msg =>
    pack unset.pad JobResponse.layout
      [[MessageType.jobAck.code], leBytes 4 messageId.toNat, leBytes 4 jobId.toNat, [status.code],
        leBytes 2 (cstr msg).length] ++ cstr msg
  | .uploadAck messageId nameLen status ipAddress tcpPort filename =>
    pack unset.pad UploadResponse.layout
      [[MessageType.uploadAck.code], leBytes 4 messageId.toNat, leBytes 2 nameLen.toNat,
        [status.code], leBytes 4 ipAddress.toNat, leBytes 2 tcpPort.toNat] ++ filename
  | .downloadAck messageId status fileSize nameLen filename =>
    pack unset.pad DownloadResponse.layout
      [[MessageType.downloadAck.code], leBytes 4 messageId.toNat, [status.code],
        leBytes 8 fileSize.toNat, leBytes 2 nameLen.toNat] ++ filename
  | .jobResult jobId status msg =>
    pack unset.pad JobResult.layout
      [[MessageType.jobResult.code], leBytes 4 unset.messageId.toNat, unset.clientId.toList,
        leBytes 4 jobId.toNat, [status.code], leBytes 2 (cstr msg).length] ++ cstr msg
  | .kicked => cstr "You have been kicked by the admin.\n"

/-! ### Reading a datagram -/

namespace Reply

def layout : Reply → List Field
  | .clientIdAck .. => ClientIdResponse.layout
  | .jobAck ..      => JobResponse.layout
  | .uploadAck ..   => UploadResponse.layout
  | .downloadAck .. => DownloadResponse.layout
  | .jobResult ..   => JobResult.layout
  | .kicked         => []

def values (unset : Unset) : Reply → List Bytes
  | .clientIdAck messageId clientId =>
    [[MessageType.clientIdAck.code], leBytes 4 messageId.toNat, clientId.toList]
  | .jobAck messageId jobId status msg =>
    [[MessageType.jobAck.code], leBytes 4 messageId.toNat, leBytes 4 jobId.toNat, [status.code],
      leBytes 2 (cstr msg).length]
  | .uploadAck messageId nameLen status ipAddress tcpPort _ =>
    [[MessageType.uploadAck.code], leBytes 4 messageId.toNat, leBytes 2 nameLen.toNat,
      [status.code], leBytes 4 ipAddress.toNat, leBytes 2 tcpPort.toNat]
  | .downloadAck messageId status fileSize nameLen _ =>
    [[MessageType.downloadAck.code], leBytes 4 messageId.toNat, [status.code],
      leBytes 8 fileSize.toNat, leBytes 2 nameLen.toNat]
  | .jobResult jobId status msg =>
    [[MessageType.jobResult.code], leBytes 4 unset.messageId.toNat, unset.clientId.toList,
      leBytes 4 jobId.toNat, [status.code], leBytes 2 (cstr msg).length]
  | .kicked => []

/-- What is behind the struct. -/
def string : Reply → Bytes
  | .clientIdAck .. => []
  | .jobAck _ _ _ msg => cstr msg
  | .uploadAck _ _ _ _ _ filename => filename
  | .downloadAck _ _ _ _ filename => filename
  | .jobResult _ _ msg => cstr msg
  | .kicked => cstr "You have been kicked by the admin.\n"

variable {i : ℕ}

lemma layout_align (reply : Reply) : ∀ f ∈ reply.layout, 0 < f.align := by
  cases reply <;>
    simp [layout, ClientIdResponse.layout, JobResponse.layout, UploadResponse.layout,
      DownloadResponse.layout, JobResult.layout, u8, u16, u32, u64, bytes]

lemma values_fit (unset : Unset) (reply : Reply) : Fits reply.layout (reply.values unset) := by
  cases reply <;>
    simp [Fits, values, layout, ClientIdResponse.layout, JobResponse.layout, UploadResponse.layout,
      DownloadResponse.layout, JobResult.layout, length_leBytes, u8, u16, u32, u64, bytes]

lemma datagram_eq (unset : Unset) (reply : Reply) : reply.datagram unset
    = pack unset.pad reply.layout (reply.values unset) ++ reply.string := by
  cases reply with
  | clientIdAck => exact (List.append_nil _).symm
  | jobAck | uploadAck | downloadAck | jobResult | kicked => rfl

/-- Every field is read back. -/
lemma slice_datagram (reply : Reply) (unset : Unset) (hi : i < reply.layout.length) :
    slice reply.layout i (reply.datagram unset) = (reply.values unset).getD i [] := by
  rw [datagram_eq]
  exact slice_pack unset.pad reply.layout_align (reply.values_fit unset) hi _

lemma sizeof_le_length_datagram (reply : Reply) (unset : Unset) :
    sizeof reply.layout ≤ (reply.datagram unset).length := by
  rw [datagram_eq, List.length_append, length_pack unset.pad reply.layout_align
    (reply.values_fit unset)]
  exact Nat.le_add_right _ _

end Reply

end Pcd
