import PcdProject.Core.FilePath
import PcdProject.Server.Decoding

/-!
# The paths of a job

The name of a job directory is made of two bytes of the client id and of the job id, and the name
of a file is appended to it as it comes in the request, cut to the size of a buffer.
-/

namespace Pcd

open FilePath

/-! ### Hexadecimal digits -/

lemma hexDigit_injective : ∀ m n : Fin 16, hexDigit m = hexDigit n → m = n := by decide

lemma hexDigit_ne_slash : ∀ n : Fin 16, hexDigit n ≠ SLASH := by decide

lemma hexDigit_inj {m n : ℕ} (hm : m < 16) (hn : n < 16) (h : hexDigit m = hexDigit n) : m = n :=
  congrArg Fin.val (hexDigit_injective ⟨m, hm⟩ ⟨n, hn⟩ h)

lemma hex02_injective {a b : UInt8} (h : hex02 a = hex02 b) : a = b := by
  have ha : a.toNat < 256 := a.toNat_lt
  have hb : b.toNat < 256 := b.toNat_lt
  simp only [hex02, List.cons.injEq, and_true] at h
  have hhigh := hexDigit_inj (by omega) (by omega) h.1
  have hlow := hexDigit_inj (by omega) (by omega) h.2
  exact UInt8.toNat.inj (by omega)

/-- A number is determined by its digits. -/
lemma eq_of_digits {k m n : ℕ} (hm : m < 16 ^ k) (hn : n < 16 ^ k)
    (h : ∀ i < k, m / 16 ^ i % 16 = n / 16 ^ i % 16) : m = n := by
  induction k generalizing m n with
  | zero =>
    simp only [Nat.pow_zero] at hm hn
    omega
  | succ k ih =>
    have hlow : m % 16 = n % 16 := by simpa using h 0 (by omega)
    have hhigh : m / 16 = n / 16 := by
      rw [Nat.pow_succ'] at hm hn
      apply ih (Nat.div_lt_of_lt_mul hm) (Nat.div_lt_of_lt_mul hn)
      intro i hi
      have hsucc := h (i + 1) (by omega)
      rwa [Nat.pow_succ', ← Nat.div_div_eq_div_mul, ← Nat.div_div_eq_div_mul] at hsucc
    omega

lemma hex08_injective {a b : UInt32} (h : hex08 a = hex08 b) : a = b := by
  have hdigits : ∀ i < 8, a.toNat / 16 ^ i % 16 = b.toNat / 16 ^ i % 16 := by
    intro i hi
    have hdigit := List.map_inj_left.mp h (7 - i) (List.mem_range.mpr (by omega))
    rw [show 7 - (7 - i) = i by omega] at hdigit
    exact hexDigit_inj (Nat.mod_lt _ (by decide)) (Nat.mod_lt _ (by decide)) hdigit
  have ha : a.toNat < 16 ^ 8 := a.toNat_lt
  have hb : b.toNat < 16 ^ 8 := b.toNat_lt
  exact UInt32.toNat.inj (eq_of_digits ha hb hdigits)

/-! ### The job directory -/

/-- The name of the directory of a job below `processing`. -/
def directoryName (clientId : ClientId) (jobId : UInt32) : Name :=
  hex02 clientId.leading.1 ++ hex02 clientId.leading.2 ++ cstr "_" ++ hex08 jobId

section Directory

variable (clientId clientId' : ClientId) (jobId jobId' : UInt32)

lemma length_hex02 (b : UInt8) : (hex02 b).length = 2 := rfl

lemma length_hex08 (n : UInt32) : (hex08 n).length = 8 := by simp [hex08]

lemma length_directoryName : (directoryName clientId jobId).length = 13 := by
  simp only [directoryName, List.length_append, length_hex02, length_hex08]
  rfl

lemma directoryName_eq_iff :
    directoryName clientId jobId = directoryName clientId' jobId' ↔
      clientId.leading = clientId'.leading ∧ jobId = jobId' := by
  constructor
  · intro h
    obtain ⟨h, hjob⟩ := List.append_inj' h (by rw [length_hex08, length_hex08])
    obtain ⟨h, -⟩ := List.append_inj' h rfl
    obtain ⟨hzero, hone⟩ := List.append_inj' h rfl
    exact ⟨Prod.ext (hex02_injective hzero) (hex02_injective hone), hex08_injective hjob⟩
  · rintro ⟨hleading, rfl⟩
    rw [directoryName, directoryName, hleading]

lemma slash_notMem_directoryName : SLASH ∉ directoryName clientId jobId := by
  have hdigit : ∀ n, n < 16 → SLASH ≠ hexDigit n := fun n hn => (hexDigit_ne_slash ⟨n, hn⟩).symm
  have hbyte : ∀ b : UInt8, SLASH ∉ hex02 b := by
    intro b
    have hb : b.toNat < 256 := b.toNat_lt
    simp only [hex02, List.mem_cons, List.not_mem_nil, or_false, not_or]
    exact ⟨hdigit _ (by omega), hdigit _ (by omega)⟩
  have hword : SLASH ∉ hex08 jobId := by
    intro hmem
    obtain ⟨i, -, hi⟩ := List.mem_map.mp hmem
    exact hdigit _ (Nat.mod_lt _ (by decide)) hi.symm
  simp only [directoryName, List.mem_append, not_or]
  exact ⟨⟨⟨hbyte _, hbyte _⟩, by decide⟩, hword⟩

lemma jobDirectory_eq :
    jobDirectory clientId jobId = cstr "processing" ++ SLASH :: directoryName clientId jobId := by
  have hroot : cstr "processing/" = cstr "processing" ++ [SLASH] := by decide
  simp only [jobDirectory, directoryName, ClientId.leading, hroot, List.append_assoc,
    List.cons_append, List.nil_append]

lemma length_jobDirectory : (jobDirectory clientId jobId).length = 24 := by
  rw [jobDirectory_eq, List.length_append, List.length_cons, length_directoryName]
  rfl

lemma dirPath_eq : dirPath clientId jobId = jobDirectory clientId jobId := by
  rw [dirPath, bounded]
  apply List.take_of_length_le
  rw [length_jobDirectory]
  decide

/-- The functions that build the path of a file cut it in the same place. -/
lemma downloadPath_eq (filename : Bytes) :
    downloadPath clientId jobId filename
      = jobDirectory clientId jobId ++ SLASH :: filename.take 486 := by
  have hslash : cstr "/" = [SLASH] := rfl
  have hlen : (jobDirectory clientId jobId ++ [SLASH]).length = 25 := by
    rw [List.length_append, length_jobDirectory]
    rfl
  rw [downloadPath, bounded, hslash, List.take_append, hlen, List.take_of_length_le (by omega),
    List.append_assoc, List.singleton_append]

lemma nameable_downloadPath (filename : Bytes) :
    Nameable (downloadPath clientId jobId filename) ↔ Nameable (filename.take 486) := by
  have hdirectory : ∀ c ∈ components (jobDirectory clientId jobId), c.length ≤ NAME_MAX := by
    intro c hc
    rw [jobDirectory_eq, components_append,
      components_name (slash_notMem_directoryName clientId jobId),
      components_name (by decide)] at hc
    rcases List.mem_append.mp hc with hc | hc
    · rw [List.mem_singleton.mp hc]
      decide
    · rw [List.mem_singleton.mp hc, length_directoryName]
      decide
  rw [downloadPath_eq, nameable_append_iff, and_iff_right hdirectory]

lemma uploadPath_eq_downloadPath (filename : Bytes) :
    uploadPath clientId jobId filename = downloadPath clientId jobId filename := by
  rw [uploadPath, dirPath_eq, downloadPath]

end Directory

/-! ### Locations -/

/-- Where an absolute path leads. -/
def location (path : Bytes) : List Name := walk [] (components path)

/-- The directory of a job when the working directory is `cwd`. -/
def jobLocation (cwd : Bytes) (clientId : ClientId) (jobId : UInt32) : List Name :=
  location (resolve cwd (dirPath clientId jobId))

lemma location_resolve (cwd path : Bytes) :
    location (resolve cwd path) = walk (location cwd) (components path) := by
  have hslash : resolve cwd path = cwd ++ SLASH :: path := by
    rw [resolve, List.append_assoc]
    rfl
  rw [location, hslash, components_append, walk_append, location]

lemma jobLocation_eq (cwd : Bytes) (clientId : ClientId) (jobId : UInt32) :
    jobLocation cwd clientId jobId
      = location cwd ++ [cstr "processing"] ++ [directoryName clientId jobId] := by
  have hlen := length_directoryName clientId jobId
  have hidle : ¬ Idle (directoryName clientId jobId) := by
    rintro (h | h) <;> rw [h] at hlen <;> cases hlen
  have hup : directoryName clientId jobId ≠ dotdot := by
    intro h
    rw [h] at hlen
    cases hlen
  rw [jobLocation, dirPath_eq, location_resolve, jobDirectory_eq, components_append, walk_append,
    walk_name (slash_notMem_directoryName clientId jobId) hidle hup,
    walk_name (by decide) (by decide) (by decide)]

/-- A file path leads from the job directory to where the cut name leads. -/
lemma location_downloadPath (cwd : Bytes) (clientId : ClientId) (jobId : UInt32)
    (filename : Bytes) :
    location (resolve cwd (downloadPath clientId jobId filename))
      = walk (jobLocation cwd clientId jobId) (components (filename.take 486)) := by
  rw [downloadPath_eq, location_resolve, components_append, walk_append, ← location_resolve,
    jobLocation, dirPath_eq]

/-! ### The paths of a request -/

/-- The path that `process_upload` opens for the job of the request. -/
def writtenPath (req : UploadRequest) (name : Bytes) (now : ℤ) : Bytes :=
  let job := UploadJob.create req name now
  uploadPath job.clientId job.jobId job.filename

/-- The path that `handle_download_request` passes to `stat` and `chmod`. -/
def reportedPath (req : DownloadRequest) (name : Bytes) : Bytes :=
  downloadPath req.clientId req.jobId name

/-- The path that `download_thread` opens for the job of the request. -/
def sentPath (req : DownloadRequest) (name : Bytes) (src : SockAddr) : Bytes :=
  let job := DownloadJob.create req name src
  downloadPath job.clientId job.jobId job.filename

lemma bounded_take (name : Bytes) : (bounded MAX_FILENAME_LEN name).take 486 = name.take 255 :=
  List.take_take

lemma writtenPath_eq (req : UploadRequest) (name : Bytes) (now : ℤ) :
    writtenPath req name now
      = jobDirectory req.clientId req.jobId ++ SLASH :: name.take 255 := by
  rw [writtenPath, uploadPath_eq_downloadPath, downloadPath_eq]
  exact congrArg (_ ++ SLASH :: ·) (bounded_take name)

lemma sentPath_eq (req : DownloadRequest) (name : Bytes) (src : SockAddr) :
    sentPath req name src = jobDirectory req.clientId req.jobId ++ SLASH :: name.take 255 := by
  rw [sentPath, downloadPath_eq]
  exact congrArg (_ ++ SLASH :: ·) (bounded_take name)

/-- The file that is written, the one that is reported and the one that is sent have the same path
exactly if the filename fits into the records of the two queues. -/
theorem paths_agree_iff (up : UploadRequest) (name : Bytes) (now : ℤ) (messageId : UInt32)
    (nameLen : UInt16) (src : SockAddr) :
    (writtenPath up name now = reportedPath ⟨messageId, up.clientId, up.jobId, nameLen⟩ name ∧
      reportedPath ⟨messageId, up.clientId, up.jobId, nameLen⟩ name
        = sentPath ⟨messageId, up.clientId, up.jobId, nameLen⟩ name src) ↔
      name.length < MAX_FILENAME_LEN := by
  rw [writtenPath_eq, sentPath_eq, reportedPath, downloadPath_eq]
  have hcut : (jobDirectory up.clientId up.jobId ++ SLASH :: name.take 255
      = jobDirectory up.clientId up.jobId ++ SLASH :: name.take 486) ↔
        name.length < MAX_FILENAME_LEN := by
    rw [List.append_cancel_left_eq, List.cons_inj_right, List.take_eq_take_iff]
    unfold MAX_FILENAME_LEN
    omega
  constructor
  · rintro ⟨hwritten, -⟩
    exact hcut.mp hwritten
  · intro hlen
    exact ⟨hcut.mpr hlen, (hcut.mpr hlen).symm⟩

/-- A name of 256 bytes: a file in a directory below that of the job. -/
def longName : Bytes := List.replicate 100 100 ++ SLASH :: List.replicate 155 97

/-- The name in two accepted datagrams has 256 bytes. The file that is looked up can exist; it is
neither the one that is written nor the one that is sent. -/
theorem not_paths_agree_long :
    ¬ ∀ (buffer buffer' : Bytes) (n n' : ℕ) (up : UploadRequest) (down : DownloadRequest)
      (name : Bytes) (now : ℤ) (src : SockAddr),
      buffer.length = BUFFER_SIZE → n ≤ BUFFER_SIZE →
      buffer'.length = BUFFER_SIZE → n' ≤ BUFFER_SIZE →
      readRequest buffer n = some (.upload up name) →
      readRequest buffer' n' = some (.download down name) →
      up.clientId = down.clientId → up.jobId = down.jobId → Nameable (reportedPath down name) →
        writtenPath up name now = reportedPath down name ∨
          reportedPath down name = sentPath down name src := by
  intro h
  let up : UploadRequest := ⟨1, Vector.replicate 16 1, 7, 5, 256⟩
  let down : DownloadRequest := ⟨2, Vector.replicate 16 1, 7, 256⟩
  have hup : CLayout.IsStruct UploadRequest.layout up.values _ :=
    CLayout.isStruct_pack 0 (by decide) up.fits
  have hdown : CLayout.IsStruct DownloadRequest.layout down.values _ :=
    CLayout.isStruct_pack 0 (by decide) down.fits
  have hread : readRequest (_ ++ longName ++ List.replicate 1744 0) _
      = some (.upload up longName) :=
    readRequest_upload _ hup (by decide +kernel) (by decide +kernel)
  have hread' : readRequest (_ ++ longName ++ List.replicate 1760 0) _
      = some (.download down longName) :=
    readRequest_download _ hdown (by decide +kernel) (by decide +kernel)
  have hagree := h _ _ _ _ up down longName 0 ⟨0, 0⟩ (by decide +kernel) (by decide +kernel)
    (by decide +kernel) (by decide +kernel) hread hread' rfl rfl (by decide +kernel)
  revert hagree
  decide +kernel

/-- The file that is written, the one that is looked up and the one that is sent lie inside of the
job directory exactly if the name, as far as it is used, stays there. -/
theorem files_inside_iff (cwd : Bytes) (up : UploadRequest) (down : DownloadRequest)
    (name : Bytes) (now : ℤ) (src : SockAddr) :
    (StrictlyInside (jobLocation cwd up.clientId up.jobId)
        (location (resolve cwd (writtenPath up name now))) ↔
      Confined (jobLocation cwd up.clientId up.jobId) (name.take 255)) ∧
    (StrictlyInside (jobLocation cwd down.clientId down.jobId)
        (location (resolve cwd (reportedPath down name))) ↔
      Confined (jobLocation cwd down.clientId down.jobId) (name.take 486)) ∧
    (StrictlyInside (jobLocation cwd down.clientId down.jobId)
        (location (resolve cwd (sentPath down name src))) ↔
      Confined (jobLocation cwd down.clientId down.jobId) (name.take 255)) := by
  refine ⟨?_, ?_, ?_⟩
  · rw [writtenPath, uploadPath_eq_downloadPath, location_downloadPath]
    exact strictlyInside_walk_iff.trans (by rw [← bounded_take]; rfl)
  · rw [reportedPath, location_downloadPath]
    exact strictlyInside_walk_iff
  · rw [sentPath, location_downloadPath]
    exact strictlyInside_walk_iff.trans (by rw [← bounded_take]; rfl)

/-- The name in the accepted datagram is `../x`. -/
theorem not_files_inside_dotdot :
    ¬ ∀ (cwd buffer : Bytes) (n : ℕ) (req : UploadRequest) (name : Bytes) (now : ℤ),
      buffer.length = BUFFER_SIZE → n ≤ BUFFER_SIZE →
      readRequest buffer n = some (.upload req name) →
        StrictlyInside (jobLocation cwd req.clientId req.jobId)
          (location (resolve cwd (writtenPath req name now))) := by
  intro h
  let req : UploadRequest := ⟨1, Vector.replicate 16 1, 7, 5, 4⟩
  have hd : CLayout.IsStruct UploadRequest.layout req.values _ :=
    CLayout.isStruct_pack 0 (by decide) req.fits
  have hread : readRequest (_ ++ cstr "../x" ++ List.replicate 1996 0) _
      = some (.upload req (cstr "../x")) :=
    readRequest_upload _ hd (by decide) (by decide)
  have hinside := h (cstr "/srv") _ _ req (cstr "../x") 0 (by decide +kernel) (by decide +kernel)
    hread
  revert hinside
  decide +kernel

end Pcd
