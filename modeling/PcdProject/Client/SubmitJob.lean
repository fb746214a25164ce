import PcdProject.Client.Transfers
import PcdProject.Core.Transition
import PcdProject.Protocol.Replies

/-!
# The jobs of a client

The calls of `submit_job` in one client, one after the other. A call waits for a JOB_ACK, makes a
call of `upload_file` for each of its files and waits for a JOB_RESULT. All waits read the same
socket, on which any datagram may arrive at any time.
-/

namespace Pcd

open CLayout Transition

/-! ### The response buffer -/

/-- The `BUFFER_SIZE` of the client. -/
def CLIENT_BUFFER_SIZE : ℕ := 4096

/-- The buffer after `recvfrom`: what does not fit is cut off, the bytes behind the datagram stay. -/
def recvfrom (d buffer : Bytes) : Bytes := d.take CLIENT_BUFFER_SIZE ++ buffer.drop d.length

/-- Write the terminator of the message behind a struct, whose field `i` is the length. -/
def terminate (fs : List Field) (i : ℕ) (buffer : Bytes) : Bytes :=
  let msgLen := (readU16 fs i buffer).toNat
  if 0 < msgLen ∧ msgLen < CLIENT_BUFFER_SIZE - sizeof fs then buffer.set (sizeof fs + msgLen) 0
  else buffer.set (sizeof fs) 0

/-- The tests of the wait for a JOB_ACK, for `n` bytes at the start of the buffer. Neither the type
nor the job id is among them. -/
def ackVerdict (n : ℕ) (buffer : Bytes) : Verdict :=
  if n < sizeof JobResponse.layout then .reject
  else if readU8 JobResponse.layout 3 (terminate JobResponse.layout 4 buffer) ≠ StatusCode.ok.code
    then .reject
  else .accept

/-- The tests of the wait for a JOB_RESULT. The status is read wherever the datagram ends. -/
def resultVerdict (n : ℕ) (buffer : Bytes) : Verdict :=
  if 0 < n ∧ buffer.headD 0 = MessageType.jobResult.code then
    if readU8 JobResult.layout 4 (terminate JobResult.layout 5 buffer) = StatusCode.ok.code
      then .accept
    else .reject
  else .retry

/-! ### A call of `submit_job` -/

/-- `files i` is the loop over the files in front of file number `i`. -/
inductive SubmitPhase where
  | ackWait
  | files (i : ℕ)
  | uploading (i : ℕ) (upload : UploadCall)
  | resultWait
  | returned (value : UInt32)

/-- A call of `submit_job`, with the datagrams that the client received during the call. -/
structure SubmitCall where
  jobId : UInt32
  files : List (Option CString)
  uploadSuccess : Bool
  respBuffer : Bytes
  received : List Bytes
  phase : SubmitPhase

namespace SubmitCall

def returned (call : SubmitCall) : Option UInt32 :=
  match call.phase with
  | .returned value => some value
  | _               => none

/-- Where the call is after a step of the `upload_file` for file number `i`. -/
def moveUpload (call : SubmitCall) (i : ℕ) (upload : UploadCall) (phase : UploadPhase) :
    SubmitCall :=
  match phase with
  | .returned success =>
    { call with uploadSuccess := call.uploadSuccess && success, phase := .files (i + 1) }
  | _ => { call with phase := .uploading i { upload with phase := phase } }

/-- The end of the loop over the files. -/
def endFiles (call : SubmitCall) : SubmitCall :=
  { call with phase := if call.uploadSuccess then .resultWait else .returned 0 }

def verdict (call : SubmitCall) (d : Bytes) : Verdict :=
  let n := min d.length CLIENT_BUFFER_SIZE
  match call.phase with
  | .ackWait    => ackVerdict n (recvfrom d call.respBuffer)
  | .resultWait => resultVerdict n (recvfrom d call.respBuffer)
  | _           => .retry

/-- A datagram is delivered. -/
def recv (call : SubmitCall) (d : Bytes) : Option SubmitCall :=
  let buffer := recvfrom d call.respBuffer
  let call' := { call with received := call.received ++ [d] }
  match call.phase with
  | .ackWait =>
    match call.verdict d with
    | .accept =>
      some { call' with respBuffer := terminate JobResponse.layout 4 buffer, phase := .files 0 }
    | .reject | .retry => some { call' with phase := .returned 0 }
  | .uploading i upload =>
    match upload.phase with
    | .waiting attempt => some (call'.moveUpload i upload (.answer attempt d))
    | _                => none
  | .resultWait =>
    match call.verdict d with
    | .accept => some { call' with phase := .returned call.jobId }
    | .reject => some { call' with phase := .returned 0 }
    | .retry  => some { call' with respBuffer := buffer }
  | .files _ | .returned _ => none

/-- `recvfrom` fails or times out. -/
def timeout (call : SubmitCall) : Option SubmitCall :=
  match call.phase with
  | .ackWait | .resultWait => some { call with phase := .returned 0 }
  | .uploading i upload =>
    match upload.phase with
    | .waiting attempt => some (call.moveUpload i upload (.sending (attempt + 1)))
    | _                => none
  | .files _ | .returned _ => none

/-- The `sendto` of `upload_file`, and the datagrams that it sends. -/
def uploadSend (call : SubmitCall) (ok : Bool) : Option (SubmitCall × List Bytes) :=
  match call.phase with
  | .uploading i ⟨addr, pad, req, filename, .sending attempt⟩ =>
    let upload : UploadCall := ⟨addr, pad, req, filename, .sending attempt⟩
    some (call.moveUpload i upload (.send attempt ok),
      if ok ∧ attempt < MAX_RETRIES then [req.datagram pad filename] else [])
  | _ => none

/-- The connection of `upload_file` and the transfer over it. -/
def transfer (call : SubmitCall) (success : Bool) : Option SubmitCall :=
  match call.phase with
  | .uploading i upload =>
    match upload.phase with
    | .connecting => some (call.moveUpload i upload (.returned success))
    | _           => none
  | _ => none

end SubmitCall

/-! ### The client -/

/-- The client at `addr`; the last call of `submit_job` comes first. -/
structure JobClient where
  addr : SockAddr
  clientId : ClientId
  nextMessageId : UInt32
  sent : List Bytes
  calls : List SubmitCall

/-- A step of the client, with the arguments of a call and what the system decides in it. A null
pointer is `none`, and `file_count` is the number of files. -/
inductive SubmitAction where
  | submit (command : Option CString) (files : Option (List (Option CString))) (rand : UInt32)
      (malloc sent : Bool) (stack : Bytes)
  | nextFile (fileSize : Option UInt64) (malloc : Bool) (pad : UInt8)
  | uploadSend (ok : Bool)
  | transfer (success : Bool)
  | recv (d : Bytes)
  | timeout

namespace JobClient

def init (addr : SockAddr) (clientId : ClientId) : JobClient where
  addr := addr
  clientId := clientId
  nextMessageId := 2
  sent := []
  calls := []

/-- All calls have returned. -/
def idle (s : JobClient) : Bool := s.calls.all fun call => call.returned.isSome

def jobRequest (s : JobClient) (command : CString) (files : List (Option CString))
    (jobId : UInt32) : JobRequest where
  messageId := s.nextMessageId
  clientId := s.clientId
  jobId := jobId
  fileCount := UInt8.ofNat files.length
  cmdLen := UInt16.ofNat command.bytes.length

/-- `submit_job` up to its first `recvfrom`; `stack` is what the response buffer contains then. -/
def submitJob (s : JobClient) (command : Option CString) (files : Option (List (Option CString)))
    (rand : UInt32) (malloc sent : Bool) (stack : Bytes) : JobClient :=
  let call : SubmitCall := ⟨rand, files.getD [], true, stack, [], .ackWait⟩
  let failed : SubmitCall := { call with phase := .returned 0 }
  match command, files with
  | some command, some files =>
    if 0 < files.length ∧ command.bytes.length < MAX_CMD_LEN ∧ malloc then
      let d := (s.jobRequest command files rand).datagram 0 command.bytes
      let s := { s with nextMessageId := s.nextMessageId + 1 }
      if sent then { s with sent := s.sent ++ [d], calls := call :: s.calls }
      else { s with calls := failed :: s.calls }
    else { s with calls := failed :: s.calls }
  | _, _ => { s with calls := failed :: s.calls }

/-- `upload_file` up to its first `sendto`; `none` if it returns before. -/
def uploadFile (s : JobClient) (jobId : UInt32) (filename : CString) (fileSize : Option UInt64)
    (malloc : Bool) (pad : UInt8) : Option UploadCall :=
  match fileSize with
  | none          => none
  | some fileSize =>
    if 0 < filename.bytes.length ∧ filename.bytes.length ≤ MAX_FILENAME_LEN ∧ malloc then
      let nameLen := UInt16.ofNat filename.bytes.length
      some ⟨s.addr, pad, ⟨s.nextMessageId, s.clientId, jobId, fileSize, nameLen⟩, filename.bytes,
        .sending 0⟩
    else none

/-- A step of the loop over the files. -/
def nextFile (s : JobClient) (call : SubmitCall) (past : List SubmitCall)
    (fileSize : Option UInt64) (malloc : Bool) (pad : UInt8) : Option JobClient :=
  match call.phase with
  | .files i =>
    match call.files[i]? with
    | none                 => some { s with calls := call.endFiles :: past }
    | some none            => some { s with calls := { call with phase := .files (i + 1) } :: past }
    | some (some filename) =>
      match s.uploadFile call.jobId filename fileSize malloc pad with
      | some upload =>
        some { s with
          nextMessageId := s.nextMessageId + 1
          calls := { call with phase := .uploading i upload } :: past }
      | none        =>
        some { s with
          calls := { call with uploadSuccess := false, phase := .files (i + 1) } :: past }
  | _ => none

def step (s : JobClient) (a : SubmitAction) : Option JobClient :=
  match s.calls, a with
  | _, .submit command files rand malloc sent stack =>
    if s.idle ∧ stack.length = CLIENT_BUFFER_SIZE then
      some (s.submitJob command files rand malloc sent stack)
    else none
  | call :: past, .nextFile fileSize malloc pad => s.nextFile call past fileSize malloc pad
  | call :: past, .uploadSend ok =>
    (call.uploadSend ok).map fun (call', out) =>
      { s with sent := s.sent ++ out, calls := call' :: past }
  | call :: past, .transfer success =>
    (call.transfer success).map fun call' => { s with calls := call' :: past }
  | call :: past, .recv d => (call.recv d).map fun call' => { s with calls := call' :: past }
  | call :: past, .timeout => call.timeout.map fun call' => { s with calls := call' :: past }
  | [], _ => none

end JobClient

/-! ### What a step changes -/

/-- A step in a call of `submit_job`. -/
inductive SubmitRule (call : SubmitCall) : SubmitAction → SubmitCall → Prop where
  | endFiles (i : ℕ) (fileSize : Option UInt64) (malloc : Bool) (pad : UInt8)
      (hphase : call.phase = .files i) (hfile : call.files[i]? = none) :
      SubmitRule call (.nextFile fileSize malloc pad) call.endFiles
  | file (i : ℕ) (fileSize : Option UInt64) (malloc : Bool) (pad : UInt8) (success : Bool)
      (hphase : call.phase = .files i) :
      SubmitRule call (.nextFile fileSize malloc pad)
        { call with uploadSuccess := success, phase := .files (i + 1) }
  | startUpload (i : ℕ) (fileSize : Option UInt64) (malloc : Bool) (pad : UInt8)
      (upload : UploadCall) (hphase : call.phase = .files i) :
      SubmitRule call (.nextFile fileSize malloc pad) { call with phase := .uploading i upload }
  | upload (i : ℕ) (upload : UploadCall) (a : SubmitAction) (phase : UploadPhase)
      (hphase : call.phase = .uploading i upload) :
      SubmitRule call a (call.moveUpload i upload phase)
  | uploadAnswer (i attempt : ℕ) (upload : UploadCall) (d : Bytes)
      (hphase : call.phase = .uploading i upload) :
      SubmitRule call (.recv d)
        (SubmitCall.moveUpload { call with received := call.received ++ [d] } i upload
          (.answer attempt d))
  | ack (d : Bytes) (hphase : call.phase = .ackWait) (haccept : call.verdict d = .accept) :
      SubmitRule call (.recv d)
        { call with
          respBuffer := terminate JobResponse.layout 4 (recvfrom d call.respBuffer)
          received := call.received ++ [d]
          phase := .files 0 }
  | result (d : Bytes) (hphase : call.phase = .resultWait) (haccept : call.verdict d = .accept) :
      SubmitRule call (.recv d)
        { call with received := call.received ++ [d], phase := .returned call.jobId }
  | ignore (d : Bytes) (hphase : call.phase = .resultWait) :
      SubmitRule call (.recv d)
        { call with
          respBuffer := recvfrom d call.respBuffer
          received := call.received ++ [d] }
  | reject (d : Bytes) :
      SubmitRule call (.recv d)
        { call with received := call.received ++ [d], phase := .returned 0 }
  | timeout : SubmitRule call .timeout { call with phase := .returned 0 }

namespace SubmitRule

variable {call call' : SubmitCall}

lemma of_recv {d : Bytes} (h : call.recv d = some call') : SubmitRule call (.recv d) call' := by
  unfold SubmitCall.recv at h
  split at h
  · rename_i hphase
    split at h
    · rename_i haccept
      cases h
      exact .ack d hphase haccept
    · cases h
      exact .reject d
    · cases h
      exact .reject d
  · rename_i i upload hphase
    split at h
    · rename_i attempt _
      cases h
      exact .uploadAnswer i attempt upload d hphase
    · cases h
  · rename_i hphase
    split at h
    · rename_i haccept
      cases h
      exact .result d hphase haccept
    · cases h
      exact .reject d
    · cases h
      exact .ignore d hphase
  · cases h
  · cases h

lemma of_timeout (h : call.timeout = some call') : SubmitRule call .timeout call' := by
  unfold SubmitCall.timeout at h
  split at h
  · cases h
    exact .timeout
  · cases h
    exact .timeout
  · rename_i i upload hphase
    split at h <;> cases h
    exact .upload i upload _ _ hphase
  · cases h
  · cases h

lemma of_uploadSend {ok : Bool} {out : List Bytes} (h : call.uploadSend ok = some (call', out)) :
    SubmitRule call (.uploadSend ok) call' := by
  unfold SubmitCall.uploadSend at h
  split at h
  · rename_i i addr pad req filename attempt hphase
    cases h
    exact .upload i _ _ _ hphase
  · cases h

lemma of_transfer {success : Bool} (h : call.transfer success = some call') :
    SubmitRule call (.transfer success) call' := by
  unfold SubmitCall.transfer at h
  split at h
  · rename_i i upload hphase
    split at h <;> cases h
    exact .upload i upload _ _ hphase
  · cases h

end SubmitRule

namespace JobClient

variable {s t : JobClient} {a : SubmitAction}

/-- A step begins a call, or moves the last call. -/
inductive StepRule (s : JobClient) (a : SubmitAction) (t : JobClient) : Prop where
  | submit (call : SubmitCall) (hphase : call.phase = .ackWait ∨ call.phase = .returned 0)
      (hcalls : t.calls = call :: s.calls)
  | move (call call' : SubmitCall) (past : List SubmitCall) (hrule : SubmitRule call a call')
      (hcalls : s.calls = call :: past) (hcalls' : t.calls = call' :: past)

lemma StepRule.of_submitJob {command : Option CString} {files : Option (List (Option CString))}
    {rand : UInt32} {malloc sent : Bool} {stack : Bytes} :
    StepRule s a (s.submitJob command files rand malloc sent stack) := by
  unfold submitJob
  split
  · dsimp only
    split_ifs
    · exact .submit _ (.inl rfl) rfl
    · exact .submit _ (.inr rfl) rfl
    · exact .submit _ (.inr rfl) rfl
  · exact .submit _ (.inr rfl) rfl

lemma StepRule.of_nextFile {call : SubmitCall} {past : List SubmitCall}
    {fileSize : Option UInt64} {malloc : Bool} {pad : UInt8} (hcalls : s.calls = call :: past)
    (h : s.nextFile call past fileSize malloc pad = some t) :
    StepRule s (.nextFile fileSize malloc pad) t := by
  unfold nextFile at h
  split at h
  · rename_i i hphase
    split at h
    · rename_i hfile
      cases h
      exact .move call _ past (.endFiles i _ _ _ hphase hfile) hcalls rfl
    · cases h
      exact .move call _ past (.file i _ _ _ call.uploadSuccess hphase) hcalls rfl
    · split at h
      · rename_i upload _
        cases h
        exact .move call _ past (.startUpload i _ _ _ upload hphase) hcalls rfl
      · cases h
        exact .move call _ past (.file i _ _ _ false hphase) hcalls rfl
  · cases h

lemma StepRule.of_step (h : s.step a = some t) : StepRule s a t := by
  unfold step at h
  split at h
  · split_ifs at h
    cases h
    exact of_submitJob
  · rename_i call past fileSize malloc pad hcalls
    exact of_nextFile hcalls h
  · rename_i call past ok hcalls
    obtain ⟨⟨call', out⟩, hcall', rfl⟩ := Option.map_eq_some_iff.mp h
    exact .move call call' past (.of_uploadSend hcall') hcalls rfl
  · rename_i call past success hcalls
    obtain ⟨call', hcall', rfl⟩ := Option.map_eq_some_iff.mp h
    exact .move call call' past (.of_transfer hcall') hcalls rfl
  · rename_i call past d hcalls
    obtain ⟨call', hcall', rfl⟩ := Option.map_eq_some_iff.mp h
    exact .move call call' past (.of_recv hcall') hcalls rfl
  · rename_i call past hcalls
    obtain ⟨call', hcall', rfl⟩ := Option.map_eq_some_iff.mp h
    exact .move call call' past (.of_timeout hcall') hcalls rfl
  · cases h

/-- The calls of `upload_file` that `submit_job` makes begin as those of any client do. -/
lemma uploadFile_begins {jobId : UInt32} {filename : CString} {fileSize : Option UInt64}
    {malloc : Bool} {pad : UInt8} {upload : UploadCall}
    (h : s.uploadFile jobId filename fileSize malloc pad = some upload) : upload.Begins := by
  unfold uploadFile at h
  split at h
  · cases h
  · split_ifs at h with hname
    obtain ⟨hpos, hmax, -⟩ := hname
    cases h
    have hlen : (UInt16.ofNat filename.bytes.length).toNat = filename.bytes.length := by
      rw [UInt16.toNat_ofNat']
      apply Nat.mod_eq_of_lt
      unfold MAX_FILENAME_LEN at hmax
      omega
    exact ⟨hpos, hmax, filename.notMem, hlen, rfl⟩

end JobClient

end Pcd
