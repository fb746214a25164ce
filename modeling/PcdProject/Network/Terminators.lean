import PcdProject.Client.SubmitJob
import PcdProject.Server.Decoding

/-!
# Terminators in receive buffers

Where the functions that receive a datagram store the zero behind its string. The server and the
rejection in `upload_file` compare struct and string with the length of the datagram, the other
waits of the client compare the string with the room behind the struct, which keeps a byte free.
-/

namespace Pcd

open CLayout

/-! ### The checks -/

/-- The string is within the `n` bytes of the datagram, or nothing is stored. -/
def receivedTerminator (size len n : ℕ) : Option ℕ :=
  if n < size + len then none else some (size + len)

/-- The string leaves a byte of the room behind the struct, or the zero is stored at its start. -/
def roomTerminator (bufferSize size len : ℕ) : ℕ :=
  if 0 < len ∧ len < bufferSize - size then size + len else size

section Checks

variable {size len n bufferSize k : ℕ}

lemma receivedTerminator_eq_some : receivedTerminator size len n = some k ↔
    size + len ≤ n ∧ k = size + len := by
  unfold receivedTerminator
  split_ifs with h
  · simp [h]
  · simp [not_lt.mp h, eq_comm]

lemma roomTerminator_lt (hsize : size < bufferSize) :
    roomTerminator bufferSize size len < bufferSize := by
  unfold roomTerminator
  split_ifs with h
  · omega
  · exact hsize

/-- The string of a request is what its terminator leaves of the bytes behind the struct. -/
lemma trailingString_eq_some {buffer name : Bytes} :
    trailingString buffer n size len = some name ↔
      ∃ k, receivedTerminator size len n = some k ∧
        ((buffer.set k 0).drop size).takeWhile (· ≠ 0) = name := by
  unfold trailingString receivedTerminator
  split_ifs <;> simp

lemma terminate_eq_set (fs : List Field) (i : ℕ) (buffer : Bytes) :
    terminate fs i buffer
      = buffer.set (roomTerminator CLIENT_BUFFER_SIZE (sizeof fs) (readU16 fs i buffer).toNat) 0 := by
  simp only [terminate, roomTerminator]
  split_ifs <;> rfl

end Checks

/-! ### The functions -/

/-- The functions with a receive buffer, `submit_job` with its two waits. -/
inductive Receiver where
  | handleUdpMessage
  | submitJobAck
  | submitJobResult
  | uploadFile
  | downloadFile
  deriving DecidableEq

/-- `sizeof(buffer)` of `client_thread`, and `sizeof(resp_buffer)` of the client. -/
def Receiver.bufferSize : Receiver → ℕ
  | .handleUdpMessage => BUFFER_SIZE
  | .submitJobAck | .submitJobResult | .uploadFile | .downloadFile => CLIENT_BUFFER_SIZE

/-- The index at which `handle_udp_message` stores a zero. -/
def handleUdpMessageTerminator (buffer : Bytes) (n : ℕ) : Option ℕ :=
  if n < 1 then none
  else
    match MessageType.ofCode (buffer.headD 0) with
    | some .jobReq      =>
      receivedTerminator (sizeof JobRequest.layout) (JobRequest.read buffer).cmdLen.toNat n
    | some .uploadReq   =>
      receivedTerminator (sizeof UploadRequest.layout) (UploadRequest.read buffer).nameLen.toNat n
    | some .downloadReq =>
      receivedTerminator (sizeof DownloadRequest.layout)
        (DownloadRequest.read buffer).nameLen.toNat n
    | _ => none

def submitJobAckTerminator (buffer : Bytes) (n : ℕ) : Option ℕ :=
  if n < sizeof JobResponse.layout then none
  else some (roomTerminator CLIENT_BUFFER_SIZE (sizeof JobResponse.layout)
    (readU16 JobResponse.layout 4 buffer).toNat)

def submitJobResultTerminator (buffer : Bytes) (n : ℕ) : Option ℕ :=
  if 0 < n ∧ buffer.headD 0 = MessageType.jobResult.code then
    some (roomTerminator CLIENT_BUFFER_SIZE (sizeof JobResult.layout)
      (readU16 JobResult.layout 5 buffer).toNat)
  else none

/-- Only the name of a rejected file is terminated. -/
def uploadFileTerminator (buffer : Bytes) (n : ℕ) : Option ℕ :=
  let nameLen := (readU16 UploadResponse.layout 2 buffer).toNat
  if n < sizeof UploadResponse.layout then none
  else if readU8 UploadResponse.layout 3 buffer ≠ StatusCode.ok.code ∧ 0 < nameLen then
    receivedTerminator (sizeof UploadResponse.layout) nameLen n
  else none

def downloadFileTerminator (buffer : Bytes) (n : ℕ) : Option ℕ :=
  if n < sizeof DownloadResponse.layout then none
  else some (roomTerminator CLIENT_BUFFER_SIZE (sizeof DownloadResponse.layout)
    (readU16 DownloadResponse.layout 4 buffer).toNat)

/-- The index at which the function stores a zero, with a datagram of `n` bytes at the start of its
buffer. -/
def Receiver.terminator : Receiver → Bytes → ℕ → Option ℕ
  | .handleUdpMessage => handleUdpMessageTerminator
  | .submitJobAck     => submitJobAckTerminator
  | .submitJobResult  => submitJobResultTerminator
  | .uploadFile       => uploadFileTerminator
  | .downloadFile     => downloadFileTerminator

/-- The size of struct and string, in the datagrams whose length is compared with it. -/
def Receiver.declaredSize (buffer : Bytes) : Receiver → Option ℕ
  | .handleUdpMessage =>
    match MessageType.ofCode (buffer.headD 0) with
    | some .jobReq      => some (sizeof JobRequest.layout + (JobRequest.read buffer).cmdLen.toNat)
    | some .uploadReq   =>
      some (sizeof UploadRequest.layout + (UploadRequest.read buffer).nameLen.toNat)
    | some .downloadReq =>
      some (sizeof DownloadRequest.layout + (DownloadRequest.read buffer).nameLen.toNat)
    | _ => none
  | .uploadFile =>
    if readU8 UploadResponse.layout 3 buffer ≠ StatusCode.ok.code then
      some (sizeof UploadResponse.layout + (readU16 UploadResponse.layout 2 buffer).toNat)
    else none
  | .submitJobAck | .submitJobResult | .downloadFile => none

/-- The size of the struct of a request and the string behind it. -/
def Request.trailing : Request → Option (ℕ × Bytes)
  | .clientId _ | .heartbeat _ => none
  | .job _ cmd                 => some (sizeof JobRequest.layout, cmd)
  | .upload _ filename         => some (sizeof UploadRequest.layout, filename)
  | .download _ filename       => some (sizeof DownloadRequest.layout, filename)

section Receivers

variable {r : Receiver} {buffer : Bytes} {n k : ℕ}

/-- `handle_udp_message` reads a string where it stores a terminator. -/
lemma trailing_of_readRequest {req : Request} {size : ℕ} {name : Bytes}
    (h : readRequest buffer n = some req) (hname : req.trailing = some (size, name)) :
    ∃ k, handleUdpMessageTerminator buffer n = some k ∧
      ((buffer.set k 0).drop size).takeWhile (· ≠ 0) = name := by
  have hn : ¬ n < 1 := by
    intro hn
    rw [readRequest, if_pos hn] at h
    cases h
  rw [handleUdpMessageTerminator, if_neg hn]
  cases RequestRule.of_readRequest h with
  | clientId | heartbeat => cases hname
  | job htype cmd hcmd =>
    cases hname
    simpa only [htype] using trailingString_eq_some.mp hcmd
  | upload htype filename hfilename =>
    cases hname
    simpa only [htype] using trailingString_eq_some.mp hfilename
  | download htype filename hfilename =>
    cases hname
    simpa only [htype] using trailingString_eq_some.mp hfilename

/-- The store is within the buffer, or right behind it, where struct and string fill the buffer. -/
lemma terminator_eq_some (h : r.terminator buffer n = some k) :
    k < r.bufferSize ∨ r.declaredSize buffer = some k ∧ k ≤ n := by
  cases r with
  | handleUdpMessage =>
    right
    simp only [Receiver.terminator, handleUdpMessageTerminator] at h
    split_ifs at h
    split at h
    · rename_i ht
      obtain ⟨hle, rfl⟩ := receivedTerminator_eq_some.mp h
      exact ⟨by simp only [Receiver.declaredSize, ht], hle⟩
    · rename_i ht
      obtain ⟨hle, rfl⟩ := receivedTerminator_eq_some.mp h
      exact ⟨by simp only [Receiver.declaredSize, ht], hle⟩
    · rename_i ht
      obtain ⟨hle, rfl⟩ := receivedTerminator_eq_some.mp h
      exact ⟨by simp only [Receiver.declaredSize, ht], hle⟩
    · cases h
  | submitJobAck =>
    left
    simp only [Receiver.terminator, submitJobAckTerminator] at h
    split_ifs at h
    cases h
    exact roomTerminator_lt (by decide)
  | submitJobResult =>
    left
    simp only [Receiver.terminator, submitJobResultTerminator] at h
    split_ifs at h
    cases h
    exact roomTerminator_lt (by decide)
  | uploadFile =>
    right
    simp only [Receiver.terminator, uploadFileTerminator] at h
    split_ifs at h with hn hrejected
    obtain ⟨hle, rfl⟩ := receivedTerminator_eq_some.mp h
    exact ⟨if_pos hrejected.1, hle⟩
  | downloadFile =>
    left
    simp only [Receiver.terminator, downloadFileTerminator] at h
    split_ifs at h
    cases h
    exact roomTerminator_lt (by decide)

/-- Where struct and string fill the datagram, and this the buffer, the zero is stored behind it. -/
lemma terminator_of_fills (h : r.declaredSize buffer = some r.bufferSize) :
    r.terminator buffer r.bufferSize = some r.bufferSize := by
  have hcheck : ∀ size len, size + len = r.bufferSize →
      receivedTerminator size len r.bufferSize = some r.bufferSize := by
    intro size len hfills
    exact receivedTerminator_eq_some.mpr ⟨hfills.le, hfills.symm⟩
  cases r with
  | handleUdpMessage =>
    simp only [Receiver.declaredSize] at h
    rw [Receiver.terminator, handleUdpMessageTerminator, if_neg (by decide)]
    split at h
    · rename_i ht
      simpa only [ht] using hcheck _ _ (Option.some.inj h)
    · rename_i ht
      simpa only [ht] using hcheck _ _ (Option.some.inj h)
    · rename_i ht
      simpa only [ht] using hcheck _ _ (Option.some.inj h)
    · cases h
  | uploadFile =>
    simp only [Receiver.declaredSize] at h
    split_ifs at h with hrejected
    have hfills := Option.some.inj h
    have hlen : 0 < (readU16 UploadResponse.layout 2 buffer).toNat := by
      have hroom : sizeof UploadResponse.layout < Receiver.uploadFile.bufferSize := by decide
      omega
    simp only [Receiver.terminator, uploadFileTerminator]
    rw [if_neg (by decide), if_pos ⟨hrejected, hlen⟩]
    exact hcheck _ _ hfills
  | submitJobAck | submitJobResult | downloadFile => cases h

end Receivers

/-! ### Main result -/

/-- A terminator is stored within the buffer, unless the struct and the string whose sizes are
compared with the length of the datagram fill the buffer. -/
theorem terminator_inside_iff (r : Receiver) (buffer : Bytes) {n : ℕ} (hn : n ≤ r.bufferSize) :
    (∀ k, r.terminator buffer n = some k → k < r.bufferSize) ↔
      ¬ (n = r.bufferSize ∧ r.declaredSize buffer = some n) := by
  constructor
  · rintro hinside ⟨rfl, hfills⟩
    exact lt_irrefl _ (hinside _ (terminator_of_fills hfills))
  · intro hfills k hk
    rcases terminator_eq_some hk with hlt | ⟨hdeclared, hle⟩
    · exact hlt
    · by_contra hge
      have hkn : k = n := by omega
      subst hkn
      exact hfills ⟨by omega, hdeclared⟩

/-- A job request with a command of four bytes. -/
theorem terminator_inside_iff_job :
    let buffer := fillBuffer
      ((⟨1, Vector.replicate 16 1, 7, 1, 4⟩ : JobRequest).datagram 0 (cstr "true")) 0
    (∀ k, Receiver.handleUdpMessage.terminator buffer 36 = some k →
        k < Receiver.handleUdpMessage.bufferSize) ↔
      ¬ (36 = Receiver.handleUdpMessage.bufferSize ∧
        Receiver.handleUdpMessage.declaredSize buffer = some 36) :=
  terminator_inside_iff .handleUdpMessage _ (by decide)

/-- A job request of 2048 bytes. -/
theorem not_terminator_inside_full :
    ¬ ∀ (r : Receiver) (buffer : Bytes) (n k : ℕ), buffer.length = r.bufferSize → 1 ≤ n →
      n ≤ r.bufferSize → r.terminator buffer n = some k → k < r.bufferSize := by
  intro h
  let req : JobRequest := ⟨1, Vector.replicate 16 1, 7, 1, 2016⟩
  let buffer := req.datagram 0 (List.replicate 2016 97)
  have hlen : buffer.length = 2048 := by
    show (pack 0 JobRequest.layout req.values ++ List.replicate 2016 97).length = 2048
    rw [List.length_append, length_pack 0 (by decide) req.fits, List.length_replicate]
    rfl
  have hread : JobRequest.read buffer = req := JobRequest.read_datagram 0 req _
  have htype : MessageType.ofCode (buffer.headD 0) = some .jobReq :=
    ofCode_struct (isStruct_pack 0 (by decide) req.fits) _
  have hdeclared : Receiver.handleUdpMessage.declaredSize buffer = some 2048 := by
    simp only [Receiver.declaredSize, htype, hread]
    rfl
  have hlt := h .handleUdpMessage buffer 2048 2048 hlen (by decide) (by decide)
    (terminator_of_fills hdeclared)
  exact lt_irrefl _ hlt

end Pcd
