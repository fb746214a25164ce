import PcdProject.Client.SubmitJob
import PcdProject.Server.Decoding

/-!
# Requests, from the client to the tables of the server

What a call of `submit_job`, `upload_file` or `download_file` asks for, the datagram that it builds
and the entry that the server makes of it. The file count crosses the network in one byte, and the
record of a queue holds one byte less of a filename than the client lets through.
-/

namespace Pcd

open CLayout

/-! ### Calls and their datagrams -/

/-- A call with the arguments that its checks look at. The size is the one that `stat` reports. -/
inductive ClientCall where
  | submitJob (command : CString) (files : List (Option CString))
  | uploadFile (filename : CString) (fileSize : UInt64)
  | downloadFile (filename : CString)

/-- The checks of the call let it through. -/
def ClientCall.Accepted : ClientCall → Prop
  | .submitJob command files => 0 < files.length ∧ command.bytes.length < MAX_CMD_LEN
  | .uploadFile filename _ | .downloadFile filename =>
    0 < filename.bytes.length ∧ filename.bytes.length ≤ MAX_FILENAME_LEN

namespace JobClient

/-- The request of `upload_file`. -/
def uploadRequest (s : JobClient) (jobId : UInt32) (filename : CString) (fileSize : UInt64) :
    UploadRequest where
  messageId := s.nextMessageId
  clientId := s.clientId
  jobId := jobId
  fileSize := fileSize
  nameLen := UInt16.ofNat filename.bytes.length

/-- The request of `download_file`. -/
def downloadRequest (s : JobClient) (jobId : UInt32) (filename : CString) : DownloadRequest where
  messageId := s.nextMessageId
  clientId := s.clientId
  jobId := jobId
  nameLen := UInt16.ofNat filename.bytes.length

/-- The call builds the datagram `d`. The bytes of a struct in front of and behind its fields are
what `malloc` returned, zero in `submit_job`. -/
def Builds (s : JobClient) (jobId : UInt32) : ClientCall → Bytes → Prop
  | .submitJob command files, d =>
    d = (s.jobRequest command files jobId).datagram 0 command.bytes
  | .uploadFile filename fileSize, d =>
    ∃ header, IsStruct UploadRequest.layout (s.uploadRequest jobId filename fileSize).values header ∧
      d = header ++ filename.bytes
  | .downloadFile filename, d =>
    ∃ header, IsStruct DownloadRequest.layout (s.downloadRequest jobId filename).values header ∧
      d = header ++ filename.bytes

end JobClient

/-- The datagrams of `submit_job`. -/
lemma builds_submitJob {s : JobClient} {command : CString} {files : List (Option CString)}
    {rand : UInt32} {malloc sent : Bool} {stack d : Bytes}
    (hd : d ∈ (s.submitJob (some command) (some files) rand malloc sent stack).sent) :
    d ∈ s.sent ∨ (ClientCall.submitJob command files).Accepted ∧
      s.Builds rand (.submitJob command files) d := by
  simp only [JobClient.submitJob] at hd
  split_ifs at hd with hchecks
  · rcases List.mem_append.mp hd with hd | hd
    · exact .inl hd
    · exact .inr ⟨⟨hchecks.1, hchecks.2.1⟩, List.mem_singleton.mp hd⟩
  · exact .inl hd
  · exact .inl hd

/-- The datagram of `upload_file`. -/
lemma builds_uploadFile {s : JobClient} {jobId : UInt32} {filename : CString} {fileSize : UInt64}
    {malloc : Bool} {pad : UInt8} {upload : UploadCall}
    (h : s.uploadFile jobId filename (some fileSize) malloc pad = some upload) :
    (ClientCall.uploadFile filename fileSize).Accepted ∧
      s.Builds jobId (.uploadFile filename fileSize) (upload.req.datagram pad upload.filename) := by
  unfold JobClient.uploadFile at h
  split_ifs at h with hchecks
  cases h
  exact ⟨⟨hchecks.1, hchecks.2.1⟩, _, isStruct_pack pad (by decide) (UploadRequest.fits _), rfl⟩

/-! ### What the server makes of them -/

/-- The directory of the job is there or can be made, and the file to download is there. -/
def Env.Serves (env : Env) (clientId : ClientId) (jobId : UInt32) : ClientCall → Prop
  | .submitJob _ _ =>
    env.reallocOk = true ∧
      match env.stat (dirPath clientId jobId) with
      | some info => info.isDir = true
      | none      => env.mkdir (dirPath clientId jobId) = true
  | .uploadFile _ _ => True
  | .downloadFile filename => (env.stat (downloadPath clientId jobId filename.bytes)).isSome

/-- Between `t` and `t'` the call was entered into its table as it was made. -/
def ClientCall.Entered (call : ClientCall) (clientId : ClientId) (jobId : UInt32) (t t' : Tables) :
    Prop :=
  match call with
  | .submitJob command files =>
    ∃ job : PendingJob, t'.pendingJobs = t.pendingJobs ++ [job] ∧ job.clientId = clientId ∧
      job.jobId = jobId ∧ job.command = command.bytes ∧ job.fileCount = files.length
  | .uploadFile filename fileSize =>
    ∃ job : UploadJob, t'.uploadQueue = enqueueUpload t.uploadQueue job ∧
      job.clientId = clientId ∧ job.jobId = jobId ∧ job.filename = filename.bytes ∧
      job.fileSize = fileSize
  | .downloadFile filename =>
    ∃ job : DownloadJob, t'.downloadQueue = t.downloadQueue ++ [job] ∧ job.clientId = clientId ∧
      job.jobId = jobId ∧ job.filename = filename.bytes

/-- Whatever the padding of the datagram and the rest of the receive buffer, and whatever the
tables: the server enters the call as it was made. -/
def ClientCall.Agrees (call : ClientCall) (s : JobClient) (jobId : UInt32) : Prop :=
  ∀ (d buffer : Bytes) (env : Env) (src : SockAddr) (t : Tables), s.Builds jobId call d →
    d <+: buffer → buffer.length = BUFFER_SIZE → env.Serves s.clientId jobId call →
      call.Entered s.clientId jobId t (handleUdpMessage env src t buffer d.length).1

/-- The file count fits into its byte, and the filename with its terminator into the record of the
queue. -/
def ClientCall.Fits : ClientCall → Prop
  | .submitJob _ files => files.length < 256
  | .uploadFile filename _ | .downloadFile filename => filename.bytes.length < MAX_FILENAME_LEN

/-! ### The handling of the three requests -/

section Handling

variable {env : Env} {src : SockAddr} {t : Tables} {buffer : Bytes} {n : ℕ} {name : Bytes}

lemma handleUdpMessage_job {req : JobRequest} (hread : readRequest buffer n = some (.job req name))
    (hrealloc : env.reallocOk = true)
    (hdir : match env.stat (dirPath req.clientId req.jobId) with
      | some info => info.isDir = true
      | none      => env.mkdir (dirPath req.clientId req.jobId) = true) :
    (handleUdpMessage env src t buffer n).1.pendingJobs
      = t.pendingJobs ++ [.create req name src env.now] := by
  have hcreate : (createJob env src req name t.pendingJobs).1
      = t.pendingJobs ++ [.create req name src env.now] := by
    unfold createJob
    cases hstat : env.stat (dirPath req.clientId req.jobId) with
    | some info =>
      rw [hstat] at hdir
      simp only [hstat, hdir, hrealloc, Bool.and_true, if_true]
    | none =>
      rw [hstat] at hdir
      simp only [hstat, hdir, hrealloc, Bool.and_true, if_true]
  rw [handleUdpMessage, hread]
  exact hcreate

lemma handleUdpMessage_upload {req : UploadRequest}
    (hread : readRequest buffer n = some (.upload req name)) :
    (handleUdpMessage env src t buffer n).1.uploadQueue
      = enqueueUpload t.uploadQueue (.create req name env.now) := by
  rw [handleUdpMessage, hread]
  rfl

lemma handleUdpMessage_download {req : DownloadRequest}
    (hread : readRequest buffer n = some (.download req name))
    (hstat : (env.stat (downloadPath req.clientId req.jobId name)).isSome) :
    (handleUdpMessage env src t buffer n).1.downloadQueue
      = t.downloadQueue ++ [.create req name src] := by
  obtain ⟨info, hinfo⟩ := Option.isSome_iff_exists.mp hstat
  rw [handleUdpMessage, hread]
  simp only [handleDownloadRequest, hinfo]

end Handling

lemma toNat_ofNat_length {n : ℕ} (h : n ≤ 1024) : (UInt16.ofNat n).toNat = n := by
  rw [UInt16.toNat_ofNat']
  omega

/-- A string is held whole exactly if its terminator fits as well. -/
lemma bounded_eq_iff {size : ℕ} {name : Bytes} (hsize : 0 < size) :
    bounded size name = name ↔ name.length < size := by
  rw [bounded, List.take_eq_self_iff]
  omega

variable {call : ClientCall} {s : JobClient} {jobId : UInt32}

section Entered

variable {d buffer : Bytes} {env : Env} {src : SockAddr} {t : Tables}

lemma entered_submitJob {command : CString} {files : List (Option CString)}
    (hcall : (ClientCall.submitJob command files).Accepted)
    (hd : s.Builds jobId (.submitJob command files) d) (hbuffer : d <+: buffer)
    (henv : env.Serves s.clientId jobId (.submitJob command files)) :
    (ClientCall.submitJob command files).Entered s.clientId jobId t
      (handleUdpMessage env src t buffer d.length).1 ↔ files.length < 256 := by
  obtain ⟨leftOver, rfl⟩ := hbuffer
  obtain ⟨-, hlen⟩ := hcall
  subst hd
  have hread := readRequest_job leftOver
    (isStruct_pack 0 (by decide) (s.jobRequest command files jobId).fits)
    (toNat_ofNat_length hlen.le) command.notMem
  have hcommand : bounded MAX_CMD_LEN command.bytes = command.bytes :=
    (bounded_eq_iff (by decide)).mpr hlen
  rw [JobRequest.datagram, List.length_append, ClientCall.Entered,
    handleUdpMessage_job hread henv.1 henv.2]
  constructor
  · rintro ⟨job, hjob, -, -, -, hcount⟩
    obtain rfl := List.cons.inj (List.append_cancel_left hjob) |>.1
    have hmod : (UInt8.ofNat files.length).toNat = files.length := hcount
    have hlt := (UInt8.ofNat files.length).toNat_lt
    rwa [hmod] at hlt
  · intro hfits
    exact ⟨_, rfl, rfl, rfl, hcommand, Nat.mod_eq_of_lt hfits⟩

lemma entered_uploadFile {filename : CString} {fileSize : UInt64}
    (hcall : (ClientCall.uploadFile filename fileSize).Accepted)
    (hd : s.Builds jobId (.uploadFile filename fileSize) d) (hbuffer : d <+: buffer) :
    (ClientCall.uploadFile filename fileSize).Entered s.clientId jobId t
      (handleUdpMessage env src t buffer d.length).1 ↔
        filename.bytes.length < MAX_FILENAME_LEN := by
  obtain ⟨leftOver, rfl⟩ := hbuffer
  obtain ⟨-, hlen⟩ := hcall
  obtain ⟨header, hheader, rfl⟩ := hd
  have hread := readRequest_upload leftOver hheader
    (toNat_ofNat_length (hlen.trans (by decide))) filename.notMem
  rw [List.length_append, ClientCall.Entered, handleUdpMessage_upload hread]
  constructor
  · rintro ⟨job, hjob, -, -, hname, -⟩
    obtain rfl := StableQueue.insert_injective hjob
    exact (bounded_eq_iff (by decide)).mp hname
  · intro hfits
    exact ⟨_, rfl, rfl, rfl, (bounded_eq_iff (by decide)).mpr hfits, rfl⟩

lemma entered_downloadFile {filename : CString}
    (hcall : (ClientCall.downloadFile filename).Accepted)
    (hd : s.Builds jobId (.downloadFile filename) d) (hbuffer : d <+: buffer)
    (henv : env.Serves s.clientId jobId (.downloadFile filename)) :
    (ClientCall.downloadFile filename).Entered s.clientId jobId t
      (handleUdpMessage env src t buffer d.length).1 ↔
        filename.bytes.length < MAX_FILENAME_LEN := by
  obtain ⟨leftOver, rfl⟩ := hbuffer
  obtain ⟨-, hlen⟩ := hcall
  obtain ⟨header, hheader, rfl⟩ := hd
  have hread := readRequest_download leftOver hheader
    (toNat_ofNat_length (hlen.trans (by decide))) filename.notMem
  rw [List.length_append, ClientCall.Entered, handleUdpMessage_download hread henv]
  constructor
  · rintro ⟨job, hjob, -, -, hname⟩
    obtain rfl := List.cons.inj (List.append_cancel_left hjob) |>.1
    exact (bounded_eq_iff (by decide)).mp hname
  · intro hfits
    exact ⟨_, rfl, rfl, rfl, (bounded_eq_iff (by decide)).mpr hfits⟩

/-- The server enters what fits. -/
lemma entered_iff_fits (hcall : call.Accepted) (hd : s.Builds jobId call d) (hbuffer : d <+: buffer)
    (henv : env.Serves s.clientId jobId call) :
    call.Entered s.clientId jobId t (handleUdpMessage env src t buffer d.length).1 ↔
      call.Fits := by
  cases call with
  | submitJob => exact entered_submitJob hcall hd hbuffer henv
  | uploadFile => exact entered_uploadFile hcall hd hbuffer
  | downloadFile => exact entered_downloadFile hcall hd hbuffer henv

end Entered

/-! ### Main result -/

/-- Every accepted call builds some datagram, and it is received whole. -/
lemma exists_builds (hcall : call.Accepted) (s : JobClient) (jobId : UInt32) :
    ∃ d, s.Builds jobId call d ∧ d.length ≤ BUFFER_SIZE := by
  unfold BUFFER_SIZE
  cases call with
  | submitJob command files =>
    have hsize := length_pack 0 (by decide) (s.jobRequest command files jobId).fits
    have hlen : command.bytes.length < 1024 := hcall.2
    refine ⟨_, rfl, ?_⟩
    rw [JobRequest.datagram, List.length_append, hsize]
    change 32 + _ ≤ _
    omega
  | uploadFile filename fileSize =>
    have hheader := isStruct_pack 0 (by decide) (s.uploadRequest jobId filename fileSize).fits
    have hlen : filename.bytes.length ≤ 256 := hcall.2
    refine ⟨_, ⟨_, hheader, rfl⟩, ?_⟩
    rw [List.length_append, hheader.length_eq]
    change 48 + _ ≤ _
    omega
  | downloadFile filename =>
    have hheader := isStruct_pack 0 (by decide) (s.downloadRequest jobId filename).fits
    have hlen : filename.bytes.length ≤ 256 := hcall.2
    refine ⟨_, ⟨_, hheader, rfl⟩, ?_⟩
    rw [List.length_append, hheader.length_eq]
    change 32 + _ ≤ _
    omega

lemma fits_of_agrees (hcall : call.Accepted) (h : call.Agrees s jobId) : call.Fits := by
  obtain ⟨d, hd, hlen⟩ := exists_builds hcall s jobId
  let env : Env := ⟨0, Vector.replicate 16 0, fun _ => some ⟨true, 0⟩, fun _ => true, true, true⟩
  have henv : env.Serves s.clientId jobId call := by
    cases call with
    | submitJob => exact ⟨rfl, rfl⟩
    | uploadFile => trivial
    | downloadFile => rfl
  have hbuffer : d <+: fillBuffer d 0 := List.prefix_append _ _
  have hentered := h d (fillBuffer d 0) env ⟨0, 0⟩ ⟨[], [], [], []⟩ hd hbuffer
    (length_fillBuffer hlen 0) henv
  exact (entered_iff_fits hcall hd hbuffer henv).mp hentered

/-- Client and server agree about exactly the accepted calls of `submit_job` with at most 255 files,
and those of `upload_file` and `download_file` with a filename of at most 255 bytes. -/
theorem agrees_iff_fits (call : ClientCall) (s : JobClient) (jobId : UInt32)
    (hcall : call.Accepted) : call.Agrees s jobId ↔ call.Fits := by
  constructor
  · exact fits_of_agrees hcall
  · intro hfits d buffer env src t hd hbuffer hlen henv
    exact (entered_iff_fits hcall hd hbuffer henv).mpr hfits

/-- A job with 255 files. -/
theorem agrees_iff_fits_job :
    let call : ClientCall := .submitJob ⟨cstr "true", by decide⟩ (List.replicate 255 none)
    call.Agrees (.init ⟨1, 1⟩ (Vector.replicate 16 1)) 7 ↔ call.Fits :=
  agrees_iff_fits _ _ _ ⟨by rw [List.length_replicate]; decide, by decide⟩

/-- A job with 256 files is entered with the file count 0. -/
theorem not_agrees_job :
    ¬ ∀ (call : ClientCall) (s : JobClient) (jobId : UInt32), call.Accepted →
      call.Agrees s jobId := by
  intro h
  let files : List (Option CString) := List.replicate 256 (some ⟨cstr "input.txt", by decide⟩)
  have hcount : files.length = 256 := List.length_replicate
  have hcall : ClientCall.Accepted (.submitJob ⟨cstr "true", by decide⟩ files) :=
    ⟨by rw [hcount]; decide, by decide⟩
  have hfits := fits_of_agrees hcall (h _ (.init ⟨1, 1⟩ (Vector.replicate 16 1)) 7 hcall)
  rw [ClientCall.Fits, hcount] at hfits
  exact lt_irrefl _ hfits

end Pcd
