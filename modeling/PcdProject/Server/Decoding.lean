import PcdProject.Core.CBuffer
import PcdProject.Protocol.Requests
import PcdProject.Server.UdpMessage

/-!
# Requests as the server reads them

The datagram of a request, a struct with any bytes in its padding and a string behind it, is read
as that request, whatever is left over in the receive buffer.
-/

namespace Pcd

open CLayout

variable {d name : Bytes}

/-- The string behind a struct. -/
lemma trailingString_append (leftOver : Bytes) (hname : 0 ∉ name) :
    trailingString (d ++ name ++ leftOver) (d.length + name.length) d.length name.length
      = some name := by
  unfold trailingString
  rw [if_neg (lt_irrefl _)]
  have htail : ((d ++ name ++ leftOver).set (d.length + name.length) 0).drop d.length
      = name ++ leftOver.set 0 0 := by
    rw [List.append_assoc, List.set_append_right _ _ (by omega), List.drop_left,
      List.set_append_right _ _ (by omega)]
    congr 2
    omega
  rw [htail]
  congr 1
  cases leftOver with
  | nil =>
    -- the terminator lies behind the buffer
    rw [List.set_nil, List.append_nil]
    exact CBuffer.takeWhile_eq_self_iff.mpr hname
  | cons b rest =>
    apply CBuffer.takeWhile_eq hname
    · intro k hk
      rw [List.getElem?_append_left hk]
    · simp

/-- The case of the switch is chosen by the first field. -/
lemma ofCode_struct {fs : List Field} {vs : List Bytes} {t : MessageType}
    (hd : IsStruct (u8 :: fs) ([t.code] :: vs) d) (rest : Bytes) :
    MessageType.ofCode ((d ++ rest).headD 0) = some t := by
  rw [hd.headD_append]
  cases t <;> decide

variable (leftOver : Bytes)

lemma readRequest_job {req : JobRequest} (hd : IsStruct JobRequest.layout req.values d)
    (hlen : req.cmdLen.toNat = name.length) (hname : 0 ∉ name) :
    readRequest (d ++ name ++ leftOver) (d.length + name.length) = some (.job req name) := by
  have hsize : d.length = 32 := hd.length_eq
  rw [readRequest, if_neg (by omega), List.append_assoc, ofCode_struct hd]
  simp only [JobRequest.read_struct hd, hlen]
  rw [← List.append_assoc, ← hd.length_eq, trailingString_append leftOver hname]
  rfl

lemma readRequest_upload {req : UploadRequest} (hd : IsStruct UploadRequest.layout req.values d)
    (hlen : req.nameLen.toNat = name.length) (hname : 0 ∉ name) :
    readRequest (d ++ name ++ leftOver) (d.length + name.length) = some (.upload req name) := by
  have hsize : d.length = 48 := hd.length_eq
  rw [readRequest, if_neg (by omega), List.append_assoc, ofCode_struct hd]
  simp only [UploadRequest.read_struct hd, hlen]
  rw [← List.append_assoc, ← hd.length_eq, trailingString_append leftOver hname]
  rfl

lemma readRequest_download {req : DownloadRequest}
    (hd : IsStruct DownloadRequest.layout req.values d)
    (hlen : req.nameLen.toNat = name.length) (hname : 0 ∉ name) :
    readRequest (d ++ name ++ leftOver) (d.length + name.length) = some (.download req name) := by
  have hsize : d.length = 32 := hd.length_eq
  rw [readRequest, if_neg (by omega), List.append_assoc, ofCode_struct hd]
  simp only [DownloadRequest.read_struct hd, hlen]
  rw [← List.append_assoc, ← hd.length_eq, trailingString_append leftOver hname]
  rfl

/-! ### Heartbeats -/

/-- The datagram of a heartbeat; the struct has no padding. -/
def heartbeatDatagram (clientId : ClientId) : Bytes :=
  MessageType.heartbeat.code :: clientId.toList

lemma length_heartbeatDatagram (clientId : ClientId) : (heartbeatDatagram clientId).length = 17 := by
  simp [heartbeatDatagram]

lemma readRequest_heartbeatDatagram (clientId : ClientId) (leftOver : Bytes) :
    readRequest (heartbeatDatagram clientId ++ leftOver) 17 = some (.heartbeat clientId) := by
  have hslice : slice Heartbeat.layout 1 (heartbeatDatagram clientId ++ leftOver)
      = clientId.toList :=
    List.take_left' clientId.length_toList
  rw [readRequest_heartbeat (by decide) rfl, readClientId, hslice, ClientId.ofBytes_toList]

end Pcd
