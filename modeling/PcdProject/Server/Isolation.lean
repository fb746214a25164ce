import PcdProject.Server.JobPaths
import PcdProject.Server.WorkingDirectory

/-!
# Jobs of different clients on disk

The two bytes of the client id in the name of a job directory do not tell all clients apart. Jobs
whose directories have different names do not touch each other, if the filenames are plain and no
relative path is used while the process is away from its start directory.
-/

namespace Pcd

open FilePath Transition

/-! ### Accesses -/

/-- A path that is passed to the system on behalf of a job. -/
structure Access where
  key : JobKey
  path : Bytes

namespace Server

/-- The relative path that the step uses for a job: a use of `pathUse`, or the directory that
`process_pending_jobs` enters. -/
def jobAccess (s : Server) (a : Action) : Option Access :=
  match a with
  | .client a =>
    match s.clientThread, a with
    | .jobStat req _ _, .stat _ =>
      some ⟨(req.clientId, req.jobId), dirPath req.clientId req.jobId⟩
    | .jobMkdir req _ _, .mkdir _ =>
      some ⟨(req.clientId, req.jobId), dirPath req.clientId req.jobId⟩
    | .downloadStat req name _, .stat _ =>
      some ⟨(req.clientId, req.jobId), downloadPath req.clientId req.jobId name⟩
    | .downloadChmod req name _ _, .chmod _ =>
      some ⟨(req.clientId, req.jobId), downloadPath req.clientId req.jobId name⟩
    | _, _ => none
  | .worker w (.openFile _) =>
    match s.workers[w]? with
    | some (.opening job _) => some ⟨job.key, uploadPath job.clientId job.jobId job.filename⟩
    | _ => none
  | .download (.openFile _) =>
    match s.downloadThread with
    | .opening _ job =>
      some ⟨(job.clientId, job.jobId), downloadPath job.clientId job.jobId job.filename⟩
    | _ => none
  | .processing (.chdir _) =>
    match s.processing with
    | .entering _ i => (s.pendingJobs[i]?).map fun job => ⟨job.key, dirPath job.clientId job.jobId⟩
    | _ => none
  | _ => none

/-- The command of a job, executed in the working directory. -/
def commandAccess (s : Server) (a : Action) : Option Access :=
  match a with
  | .processing (.system _) => s.commandJob.map fun job => ⟨job.key, dot⟩
  | _ => none

/-- If the step uses a relative path, the process is in its start directory. -/
def AtHome (dir : Bytes) (s : Server) (a : Action) : Prop := (s.jobAccess a).isSome → s.cwd = dir

instance (dir : Bytes) (s : Server) (a : Action) : Decidable (s.AtHome dir a) :=
  inferInstanceAs (Decidable (_ → _))

/-- The paths of `pathUse` are accesses. -/
lemma pathUse_subset (s : Server) (a : Action) :
    ∀ path ∈ s.pathUse a, path ∈ (s.jobAccess a).map Access.path := by
  intro path hpath
  unfold pathUse at hpath
  unfold jobAccess
  split at hpath
  · split at hpath <;> simp_all
  · split at hpath <;> simp_all
  · split at hpath <;> simp_all
  · cases hpath

end Server

/-- The directories of the two jobs have the same name. -/
def SameName (key key' : JobKey) : Prop :=
  ClientId.leading key.1 = ClientId.leading key'.1 ∧ key.2 = key'.2

instance (key key' : JobKey) : Decidable (SameName key key') :=
  inferInstanceAs (Decidable (_ ∧ _))

/-- The access leads neither to the directory of the other job nor to anything inside of it. -/
def Access.Avoids (x : Access) (dir cwd : Bytes) (key : JobKey) : Prop :=
  ¬ jobLocation dir key.1 key.2 <+: location (resolve cwd x.path)

/-! ### Filenames -/

def Request.filename : Request → Option Bytes
  | .upload _ name | .download _ name => some name
  | _ => none

/-- The filename in the datagram that the step receives. -/
def Action.filename : Action → Option Bytes
  | .client (.receive buffer n _ _ _) => (readRequest buffer n).bind Request.filename
  | _ => none

/-- A received filename has no slash. -/
def Action.Plain (a : Action) : Prop := ∀ name ∈ a.filename, SLASH ∉ name

instance (a : Action) : Decidable a.Plain := inferInstanceAs (Decidable (∀ name ∈ a.filename, _))

def Worker.job : Worker → Option UploadJob
  | .waiting => none
  | .picked job | .accepting job | .opening job _ | .receiving job _ _ _ | .transferred job _ _
  | .finished job => some job

def DownloadThread.job : DownloadThread → Option DownloadJob
  | .accepting | .waiting _ => none
  | .verifying _ job | .opening _ job | .sending _ job => some job

structure PlainNames (s : Server) : Prop where
  client    : ∀ name ∈ s.clientThread.filename, SLASH ∉ name
  uploads   : ∀ job ∈ s.uploadQueue, SLASH ∉ job.filename
  workers   : ∀ pc ∈ s.workers, ∀ job ∈ pc.job, SLASH ∉ job.filename
  downloads : ∀ job ∈ s.downloadQueue, SLASH ∉ job.filename
  sending   : ∀ job ∈ s.downloadThread.job, SLASH ∉ job.filename

namespace PlainNames

variable {s t : Server} {a : Action}

lemma init (dir : Bytes) : PlainNames (Server.init dir) where
  client := by simp [Server.init, ClientThread.filename]
  uploads := by simp [Server.init]
  workers := by
    intro pc hpc
    rw [List.eq_of_mem_replicate hpc]
    simp [Worker.job]
  downloads := by simp [Server.init]
  sending := by simp [Server.init, DownloadThread.job]

/-- The client thread has its filename from the datagram. -/
lemma filename_step {a : ClientAction} (h : s.clientStep a = some t) :
    ∀ name ∈ t.clientThread.filename,
      name ∈ s.clientThread.filename ∨ name ∈ (Action.client a).filename := by
  intro name hname
  cases DatagramRule.of_clientStep h with
  | receive buffer n src now newId =>
    simp only [Action.filename]
    cases hreq : readRequest buffer n with
    | none =>
      rw [hreq] at hname
      exact .inl hname
    | some req =>
      rw [hreq] at hname
      cases req with
      | clientId | heartbeat => exact .inl hname
      | job => cases hname
      | upload | download => exact .inr hname
  | goOn _ _ _ _ hold =>
    rcases hold with hnone | hold
    · rw [hnone] at hname
      cases hname
    · exact .inl (hold ▸ hname)

lemma slash_notMem_bounded {size : ℕ} {name : Bytes} (h : SLASH ∉ name) :
    SLASH ∉ bounded size name :=
  fun hmem => h (List.mem_of_mem_take hmem)

lemma client_action (hs : PlainNames s) {a : ClientAction} (ha : (Action.client a).Plain)
    (h : s.clientStep a = some t) : PlainNames t := by
  have hclient : ∀ name ∈ t.clientThread.filename, SLASH ∉ name := by
    intro name hname
    rcases filename_step h name hname with hold | hnew
    · exact hs.client name hold
    · exact ha name hnew
  cases ClientRule.of_clientStep h with
  | move | clients | appendJob => exact ⟨hclient, hs.uploads, hs.workers, hs.downloads, hs.sending⟩
  | enqueueUpload req name src now hpc =>
    refine ⟨hclient, ?_, hs.workers, hs.downloads, hs.sending⟩
    intro job hjob
    rcases List.mem_cons.mp ((StableQueue.insert_perm _ _ _).subset hjob) with rfl | hjob
    · exact slash_notMem_bounded (hs.client name (by rw [hpc]; rfl))
    · exact hs.uploads job hjob
  | enqueueDownload req name src now hpc =>
    refine ⟨hclient, hs.uploads, hs.workers, ?_, hs.sending⟩
    intro job hjob
    rcases List.mem_append.mp hjob with hjob | hjob
    · exact hs.downloads job hjob
    · rw [List.mem_singleton.mp hjob]
      exact slash_notMem_bounded (hs.client name (by rw [hpc]; rfl))

lemma worker_action (hs : PlainNames s) {w : ℕ} {a : WorkerAction} (h : WorkerRule s w a t) :
    PlainNames t := by
  have set : ∀ pc', (∀ job ∈ pc'.job, SLASH ∉ job.filename) →
      ∀ pc ∈ s.workers.set w pc', ∀ job ∈ pc.job, SLASH ∉ job.filename := by
    intro pc' hpc' pc hpc
    rcases List.mem_or_eq_of_mem_set hpc with hpc | rfl
    · exact hs.workers pc hpc
    · exact hpc'
  have keep : ∀ {pc pc'}, s.workers[w]? = some pc → pc'.job = pc.job →
      ∀ pc ∈ s.workers.set w pc', ∀ job ∈ pc.job, SLASH ∉ job.filename := by
    intro pc pc' hpc hjob
    apply set
    rw [hjob]
    exact hs.workers pc (List.mem_of_getElem? hpc)
  cases h with
  | pick job queue hpc hqueue hlt =>
    have hqueued : ∀ x ∈ job :: queue, SLASH ∉ x.filename := hqueue ▸ hs.uploads
    refine ⟨hs.client, fun x hx => hqueued x (List.mem_cons_of_mem _ hx), ?_, hs.downloads,
      hs.sending⟩
    apply set
    rintro x ⟨⟩
    exact hqueued job List.mem_cons_self
  | lookup job pc hpc hfree hpc' =>
    refine ⟨hs.client, hs.uploads, keep hpc ?_, hs.downloads, hs.sending⟩
    rcases hpc' with rfl | rfl <;> rfl
  | finish job hpc =>
    refine ⟨hs.client, hs.uploads, ?_, hs.downloads, hs.sending⟩
    apply set
    rintro x ⟨⟩
  | accept _ _ _ hpc | acceptFail _ hpc | openFile _ _ hpc | openFail _ _ hpc
  | recv _ _ _ _ _ hpc | shortWrite _ _ _ _ _ _ hpc | hangup _ _ _ _ hpc | close _ _ _ hpc
  | update _ _ _ _ hpc =>
    exact ⟨hs.client, hs.uploads, keep hpc rfl, hs.downloads, hs.sending⟩

lemma download_action (hs : PlainNames s) {a : DownloadAction} (h : DownloadRule s a t) :
    PlainNames t := by
  obtain ⟨hclient, huploads, hworkers, hdownloads, hsending⟩ := hs
  cases h with
  | pop conn job queue hpc hqueue =>
    rw [hqueue] at hdownloads
    refine ⟨hclient, huploads, hworkers, fun x hx => hdownloads x (List.mem_cons_of_mem _ hx), ?_⟩
    rintro x ⟨⟩
    exact hdownloads job List.mem_cons_self
  | valid conn job hpc =>
    refine ⟨hclient, huploads, hworkers, hdownloads, ?_⟩
    rintro x ⟨⟩
    exact hsending job (by rw [hpc]; rfl)
  | openFile conn job hpc =>
    refine ⟨hclient, huploads, hworkers, hdownloads, ?_⟩
    rintro x ⟨⟩
    exact hsending job (by rw [hpc]; rfl)
  | acceptFail => exact ⟨hclient, huploads, hworkers, hdownloads, hsending⟩
  | accept | invalid | openFail | finish =>
    refine ⟨hclient, huploads, hworkers, hdownloads, ?_⟩
    rintro x ⟨⟩

lemma step (hs : PlainNames s) (ha : a.Plain) (h : s.step a = some t) : PlainNames t := by
  cases SystemRule.of_step h with
  | client a => exact hs.client_action ha h
  | worker w a _ h => exact hs.worker_action h
  | download a _ h => exact hs.download_action h
  | processing a _ h =>
    cases h <;> exact ⟨hs.client, hs.uploads, hs.workers, hs.downloads, hs.sending⟩
  | sweep | kick | limit | limitIgnored | connectUpload | connectDownload =>
    exact ⟨hs.client, hs.uploads, hs.workers, hs.downloads, hs.sending⟩

end PlainNames

/-! ### The directory of a command -/

namespace Server

variable {s t : Server} {a : Action} {dir : Bytes}

/-- A command is executed in the directory of its job. -/
def InJobDirectory (dir : Bytes) (s : Server) : Prop :=
  ∀ job, s.commandJob = some job → s.cwd = resolve dir (dirPath job.clientId job.jobId)

lemma commandJob_of_free (h : s.processing.holdsJobsMutex = false) : s.commandJob = none := by
  unfold commandJob
  split
  · rename_i hpc
    rw [hpc] at h
    cases h
  · rfl

lemma InJobDirectory.step (hs : s.InJobDirectory dir) (ha : s.AtHome dir a)
    (h : s.step a = some t) : t.InJobDirectory dir := by
  have free : ∀ {u : Server}, u.processing = s.processing →
      s.processing.holdsJobsMutex = false → u.InJobDirectory dir := by
    intro u hproc hfree job hjob
    rw [commandJob_of_free (hproc ▸ hfree)] at hjob
    cases hjob
  cases SystemRule.of_step h with
  | processing a _ h =>
    cases h with
    | chdir originalDir i job hpc hjob =>
      rintro job' hjob'
      obtain rfl : job = job' := Option.some.inj (hjob.symm.trans hjob')
      have hhome : s.cwd = dir := ha (by simp [jobAccess, hpc, hjob])
      exact congrArg (resolve · _) hhome
    | getcwdFail => exact hs
    | getcwd | lock | unlock | ready | notReady | chdirFail | system | malloc | mallocFail | sendto
    | remove | chdirBack =>
      intro job hjob
      cases hjob
  | client a _ h =>
    cases h with
    | appendJob req cmd src now hpc hfree => exact free rfl hfree
    | move | clients | enqueueUpload | enqueueDownload => exact hs
  | worker w a _ h =>
    cases h with
    | update job remaining total now hpc hfree => exact free rfl hfree
    | pick | lookup | accept | acceptFail | openFile | openFail | recv | shortWrite | hangup
    | close | finish => exact hs
  | download a _ h => cases h <;> exact hs
  | sweep | kick | limit | limitIgnored | connectUpload | connectDownload => exact hs

end Server

/-! ### Main result -/

variable {dir : Bytes} {key key' : JobKey}

lemma directoryName_ne (h : ¬ SameName key key') :
    directoryName key.1 key.2 ≠ directoryName key'.1 key'.2 := by
  rwa [Ne, directoryName_eq_iff]

lemma jobDirectory_eq_iff :
    jobDirectory key.1 key.2 = jobDirectory key'.1 key'.2 ↔ SameName key key' := by
  rw [jobDirectory_eq, jobDirectory_eq, List.append_cancel_left_eq, List.cons_inj_right,
    directoryName_eq_iff, SameName]

lemma not_prefix_jobLocation (h : ¬ SameName key key') :
    ¬ jobLocation dir key'.1 key'.2 <+: jobLocation dir key.1 key.2 := by
  rw [jobLocation_eq, jobLocation_eq]
  intro hprefix
  have heq := hprefix.eq_of_length (by simp)
  exact directoryName_ne h (by simpa using heq.symm)

/-- A path of a job, used in the start directory, leads into no directory of another name. -/
lemma avoids_jobAccess {s : Server} {a : Action} {x : Access} (hs : PlainNames s)
    (hx : x ∈ s.jobAccess a) (h : ¬ SameName x.key key) : x.Avoids dir dir key := by
  have file : ∀ name, SLASH ∉ name → x.path = downloadPath x.key.1 x.key.2 name →
      x.Avoids dir dir key := by
    intro name hname hpath
    have htake : SLASH ∉ name.take 486 := fun hmem => hname (List.mem_of_mem_take hmem)
    rw [Access.Avoids, hpath, location_downloadPath, jobLocation_eq, jobLocation_eq]
    exact not_prefix_walk (directoryName_ne h) htake
  have directory : x.path = dirPath x.key.1 x.key.2 → x.Avoids dir dir key := by
    intro hpath
    rw [Access.Avoids, hpath]
    exact not_prefix_jobLocation h
  unfold Server.jobAccess at hx
  split at hx
  · split at hx
    · cases hx
      exact directory rfl
    · cases hx
      exact directory rfl
    · rename_i hpc
      cases hx
      exact file _ (hs.client _ (by rw [hpc]; rfl)) rfl
    · rename_i hpc
      cases hx
      exact file _ (hs.client _ (by rw [hpc]; rfl)) rfl
    · cases hx
  · split at hx
    · rename_i hpc
      cases hx
      exact file _ (hs.workers _ (List.mem_of_getElem? hpc) _ rfl)
        (uploadPath_eq_downloadPath _ _ _)
    · cases hx
  · split at hx
    · rename_i hpc
      cases hx
      exact file _ (hs.sending _ (by rw [hpc]; rfl)) rfl
    · cases hx
  · split at hx
    · obtain ⟨job, -, rfl⟩ := Option.map_eq_some_iff.mp hx
      exact directory rfl
    · cases hx
  · cases hx

lemma avoids_commandAccess {s : Server} {a : Action} {x : Access} (hs : s.InJobDirectory dir)
    (hx : x ∈ s.commandAccess a) (h : ¬ SameName x.key key) : x.Avoids dir s.cwd key := by
  have hdot : location (resolve s.cwd dot) = location s.cwd := by
    rw [location_resolve]
    rfl
  have directory : x.path = dot → s.cwd = resolve dir (dirPath x.key.1 x.key.2) →
      x.Avoids dir s.cwd key := by
    intro hpath hcwd
    rw [Access.Avoids, hpath, hdot, hcwd, ← jobLocation]
    exact not_prefix_jobLocation h
  unfold Server.commandAccess at hx
  split at hx
  · obtain ⟨job, hjob, rfl⟩ := Option.map_eq_some_iff.mp hx
    exact directory rfl (hs job hjob)
  · cases hx

/-- The directories of different jobs differ exactly if two bytes of the client ids or the job ids
do. In a run with plain filenames in which relative paths are used only in the start directory, no
file access and no command of a job leads into a directory of another name. -/
theorem jobs_isolated (key key' : JobKey) (dir : Bytes) (as : List Action) :
    ((key ≠ key' → dirPath key.1 key.2 ≠ dirPath key'.1 key'.2 ∧
        jobDirectory key.1 key.2 ≠ jobDirectory key'.1 key'.2) ↔
      (SameName key key' → key = key')) ∧
    (Along Server.step (fun s a => a.Plain ∧ s.AtHome dir a) (.init dir) as →
      Along Server.step (fun s a => ∀ x, x ∈ s.jobAccess a ∨ x ∈ s.commandAccess a →
        ∀ other, ¬ SameName x.key other → x.Avoids dir s.cwd other) (.init dir) as) := by
  refine ⟨?_, ?_⟩
  · rw [dirPath_eq, dirPath_eq, Ne, Ne, jobDirectory_eq_iff, and_self, not_imp_not]
  · intro hC pre a s hpre hrun
    have hinv : PlainNames s ∧ s.InJobDirectory dir := by
      refine along_invariant (I := fun s => PlainNames s ∧ s.InJobDirectory dir) ?_ ?_
        (hC.of_prefix ((List.prefix_append _ _).trans hpre)) hrun
      · rintro s a t ⟨hplain, hdir⟩ ⟨ha, hhome⟩ h
        exact ⟨hplain.step ha h, hdir.step hhome h⟩
      · refine ⟨.init dir, ?_⟩
        intro job hjob
        cases hjob
    rintro x (hx | hx) other hother
    · have hhome : s.cwd = dir := (hC pre a s hpre hrun).2 (Option.isSome_of_mem hx)
      rw [hhome]
      exact avoids_jobAccess hinv.1 hx hother
    · exact avoids_commandAccess hinv.2 hx hother

/-- A job, an upload for it and its command. -/
theorem jobs_isolated_transferRun :
    Along Server.step (fun s a => ∀ x, x ∈ s.jobAccess a ∨ x ∈ s.commandAccess a →
      ∀ key, ¬ SameName x.key key → x.Avoids [] s.cwd key) (.init [])
      (transferRun [.recv 60 60, .recv 40 40, .close] ++ [.processing (.system 0)]) :=
  (jobs_isolated (Vector.replicate 16 1, 7) (Vector.replicate 16 2, 7) [] _).2 (by decide +kernel)

/-- The clients differ in the third byte of their ids. -/
theorem not_jobs_isolated_thirdByte :
    ¬ ∀ key key' : JobKey, key ≠ key' → dirPath key.1 key.2 ≠ dirPath key'.1 key'.2 := by
  intro h
  have hne := h (Vector.replicate 16 1, 7) ((Vector.replicate 16 1).set 2 0, 7) (by decide)
  revert hne
  decide

end Pcd
