import PcdProject.Protocol.Requests

/-!
# The transfers of a client

`upload_file` and `download_file` of the C client, as far as they talk to the server: where a call
is, what it sends, and how it judges a datagram that it receives while it waits for an answer.
-/

namespace Pcd

open CLayout

def MAX_RETRIES : ℕ := 3

/-- What a call does with a datagram. -/
inductive Verdict where
  | retry
  | reject
  | accept
  deriving DecidableEq

/-! ### Uploads -/

inductive UploadPhase where
  | sending (attempt : ℕ)
  | waiting (attempt : ℕ)
  | connecting
  | transferring
  | returned (success : Bool)
  deriving DecidableEq

/-- The tests that `upload_file` applies to a datagram; the type is not among them. -/
def uploadVerdict (d : Bytes) : Verdict :=
  if d.length < sizeof UploadResponse.layout then .retry
  else if readU8 UploadResponse.layout 3 d ≠ StatusCode.ok.code then .reject
  else if readU16 UploadResponse.layout 5 d = 0 then .reject
  else .accept

/-- The attempts are used up in front of the next `sendto`, or a request is sent. -/
def UploadPhase.send (attempt : ℕ) (ok : Bool) : UploadPhase :=
  if attempt < MAX_RETRIES then
    if ok then .waiting attempt else .sending (attempt + 1)
  else .returned false

def UploadPhase.answer (attempt : ℕ) (d : Bytes) : UploadPhase :=
  match uploadVerdict d with
  | .retry  => .sending (attempt + 1)
  | .reject => .returned false
  | .accept => .connecting

/-- A call of `upload_file` in the client at `addr`. -/
structure UploadCall where
  addr : SockAddr
  pad : UInt8
  req : UploadRequest
  filename : Bytes
  phase : UploadPhase

/-- What the tests of `upload_file` let through, in front of the first `sendto`. -/
def UploadCall.Begins (call : UploadCall) : Prop :=
  0 < call.filename.length ∧ call.filename.length ≤ MAX_FILENAME_LEN ∧ 0 ∉ call.filename ∧
    call.req.nameLen.toNat = call.filename.length ∧ call.phase = .sending 0

instance (call : UploadCall) : Decidable call.Begins := inferInstanceAs (Decidable (_ ∧ _))

/-! ### Downloads -/

inductive DownloadPhase where
  | sending
  | waiting
  | connecting (answered : Bool)
  | transferring
  | returned
  deriving DecidableEq

/-- The tests that `download_file` applies to a datagram; the type is not among them. -/
def downloadVerdict (d : Bytes) : Verdict :=
  if d.length < sizeof DownloadResponse.layout then .reject
  else if readU8 DownloadResponse.layout 2 d ≠ StatusCode.ok.code then .reject
  else .accept

/-- `answered` says whether the datagram is the answer to the request of the call. -/
def DownloadPhase.answer (answered : Bool) (d : Bytes) : DownloadPhase :=
  match downloadVerdict d with
  | .accept => .connecting answered
  | .reject | .retry => .returned

/-- A call of `download_file` in the client at `addr`. -/
structure DownloadCall where
  addr : SockAddr
  pad : UInt8
  req : DownloadRequest
  filename : Bytes
  phase : DownloadPhase

/-- What the tests of `download_file` let through, in front of `sendto`. -/
def DownloadCall.Begins (call : DownloadCall) : Prop :=
  0 < call.filename.length ∧ call.filename.length ≤ MAX_FILENAME_LEN ∧ 0 ∉ call.filename ∧
    call.req.nameLen.toNat = call.filename.length ∧ call.phase = .sending

instance (call : DownloadCall) : Decidable call.Begins := inferInstanceAs (Decidable (_ ∧ _))

end Pcd
