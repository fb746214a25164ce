import PcdProject.Server.ReadyJobs

/-!
# The working directory

`process_pending_jobs` changes the working directory of the process while the other threads use
relative paths. A path is resolved against the start directory unless it is used while the
processing thread is away from it.
-/

namespace Pcd

open Transition

/-! ### The uses of relative paths -/

/-- The path that the step passes to `stat`, `mkdir`, `open` or `chmod` in `create_job`,
`handle_download_request`, `process_upload` or `download_thread`. -/
def Server.pathUse (s : Server) (a : Action) : Option Bytes :=
  match a with
  | .client a =>
    match s.clientThread, a with
    | .jobStat req _ _, .stat _              => some (dirPath req.clientId req.jobId)
    | .jobMkdir req _ _, .mkdir _            => some (dirPath req.clientId req.jobId)
    | .downloadStat req name _, .stat _      => some (downloadPath req.clientId req.jobId name)
    | .downloadChmod req name _ _, .chmod _  => some (downloadPath req.clientId req.jobId name)
    | _, _ => none
  | .worker w (.openFile _) =>
    match s.workers[w]? with
    | some (.opening job _) => some (uploadPath job.clientId job.jobId job.filename)
    | _ => none
  | .download (.openFile _) =>
    match s.downloadThread with
    | .opening _ job => some (downloadPath job.clientId job.jobId job.filename)
    | _ => none
  | _ => none

/-! ### Where the process is -/

/-- Whether the process is away from the start directory, and whether it was when the running pass
took its `original_dir`. -/
structure Whereabouts where
  away : Bool
  originalAway : Bool

/-- The results of the three calls that `process_pending_jobs` makes. -/
def Whereabouts.next (p : Whereabouts) : Action → Whereabouts
  | .processing (.getcwd true)    => { p with originalAway := p.away }
  | .processing (.chdir true)     => { p with away := true }
  | .processing (.chdirBack true) => { p with away := p.originalAway }
  | _ => p

def whereabouts (as : List Action) : Whereabouts := as.foldl Whereabouts.next ⟨false, false⟩

/-- The directory is the start directory, or it is longer because it lies below it. -/
def AwayFrom (dir : Bytes) (away : Bool) (d : Bytes) : Prop :=
  if away then dir.length < d.length else d = dir

lemma AwayFrom.resolve {dir cwd path : Bytes} {away : Bool} (h : AwayFrom dir away cwd) :
    AwayFrom dir true (resolve cwd path) := by
  have hle : dir.length ≤ cwd.length := by
    cases away with
    | true => exact le_of_lt (by simpa [AwayFrom] using h)
    | false => exact le_of_eq (by simpa [AwayFrom] using congrArg List.length (Eq.symm h))
  have hslash : (cstr "/").length = 1 := rfl
  simp only [AwayFrom, if_true, Pcd.resolve, List.length_append, hslash]
  omega

/-- A relative path names the same file from both directories only if they are the same. -/
lemma resolve_eq_iff {dir cwd path : Bytes} : resolve cwd path = resolve dir path ↔ cwd = dir := by
  simp [resolve]

def Processing.originalDir : Processing → Option Bytes
  | .sleeping => none
  | .locking dir | .scanning dir _ | .entering dir _ | .running dir _ | .allocating dir _ _
  | .sending dir _ _ | .removing dir _ | .returning dir _ => some dir

structure WhereInv (dir : Bytes) (s : Server) (p : Whereabouts) : Prop where
  cwd      : AwayFrom dir p.away s.cwd
  original : ∀ d ∈ s.processing.originalDir, AwayFrom dir p.originalAway d

namespace WhereInv

variable {dir : Bytes} {s t : Server} {a : Action} {p : Whereabouts}

lemma init (dir : Bytes) : WhereInv dir (Server.init dir) ⟨false, false⟩ where
  cwd := rfl
  original := by simp [Server.init, Processing.originalDir]

/-- A step of another thread changes nothing. -/
lemma frame (hs : WhereInv dir s p) (hcwd : t.cwd = s.cwd) (hproc : t.processing = s.processing)
    (hp : p.next a = p) : WhereInv dir t (p.next a) := by
  rw [hp]
  exact ⟨hcwd ▸ hs.cwd, hproc ▸ hs.original⟩

lemma processing_step {a : ProcessingAction} (hs : WhereInv dir s p) (h : ProcessingRule s a t) :
    WhereInv dir t (p.next (.processing a)) := by
  obtain ⟨hcwd, horiginal⟩ := hs
  have keep : ∀ {d d' : Bytes}, s.processing.originalDir = some d → some d = some d' →
      AwayFrom dir p.originalAway d' := by
    intro d d' hd hd'
    exact horiginal d' (hd.trans hd')
  cases h with
  | getcwd hpc =>
    refine ⟨hcwd, ?_⟩
    rintro d ⟨⟩
    exact hcwd
  | getcwdFail ok hpc =>
    cases ok with
    | true => exact ⟨hcwd, by simp [hpc, Processing.originalDir]⟩
    | false => exact ⟨hcwd, horiginal⟩
  | unlock originalDir i hpc => exact ⟨hcwd, by simp [Processing.originalDir]⟩
  | chdir originalDir i job hpc hjob => exact ⟨hcwd.resolve, fun d => keep (by rw [hpc]; rfl)⟩
  | chdirBack originalDir i ok hpc =>
    have hd : AwayFrom dir p.originalAway originalDir := horiginal _ (by rw [hpc]; rfl)
    cases ok with
    | true => exact ⟨hd, fun d => keep (by rw [hpc]; rfl)⟩
    | false => exact ⟨hcwd, fun d => keep (by rw [hpc]; rfl)⟩
  | lock originalDir hpc | ready originalDir i _ hpc | notReady originalDir i hpc
  | chdirFail originalDir i hpc | system originalDir i ret status hpc
  | malloc originalDir i status hpc | mallocFail originalDir i status hpc
  | sendto originalDir i status _ hpc | remove originalDir i hpc =>
    exact ⟨hcwd, fun d => keep (by rw [hpc]; rfl)⟩

lemma step (hs : WhereInv dir s p) (h : s.step a = some t) : WhereInv dir t (p.next a) := by
  cases SystemRule.of_step h with
  | processing a _ h => exact hs.processing_step h
  | client a _ h => cases h <;> exact hs.frame rfl rfl rfl
  | worker w a _ h => cases h <;> exact hs.frame rfl rfl rfl
  | download a _ h => cases h <;> exact hs.frame rfl rfl rfl
  | sweep | kick | limit | limitIgnored | connectUpload | connectDownload =>
    exact hs.frame rfl rfl rfl

lemma of_run {as : List Action} (h : run Server.step (.init dir) as = some s) :
    WhereInv dir s (whereabouts as) := by
  refine run_induction (P := fun as s => WhereInv dir s (whereabouts as)) (init dir) ?_ h
  intro as a t u hrun ha ih
  rw [whereabouts, List.foldl_concat]
  exact ih.step ha

lemma cwd_eq_iff (hs : WhereInv dir s p) : s.cwd = dir ↔ p.away = false := by
  have hcwd := hs.cwd
  unfold AwayFrom at hcwd
  split_ifs at hcwd with haway
  · apply iff_of_false
    · intro heq
      rw [heq] at hcwd
      exact lt_irrefl _ hcwd
    · simp [haway]
  · exact iff_of_true hcwd (by simpa using haway)

end WhereInv

/-! ### Main result -/

/-- All relative paths are resolved against the start directory in exactly the runs in which none
is used while the process is away from it. -/
theorem pathUse_resolve_iff (dir : Bytes) (as : List Action) :
    Along Server.step (fun t a => ∀ path ∈ t.pathUse a, resolve t.cwd path = resolve dir path)
        (.init dir) as ↔
      ∀ pre a t, pre ++ [a] <+: as → run Server.step (.init dir) pre = some t →
        (t.pathUse a).isSome → (whereabouts pre).away = false := by
  constructor
  · intro hres pre a t hpre hrun huse
    obtain ⟨path, hpath⟩ := Option.isSome_iff_exists.mp huse
    have heq := hres pre a t hpre hrun path hpath
    exact (WhereInv.of_run hrun).cwd_eq_iff.mp (resolve_eq_iff.mp heq)
  · intro haway pre a t hpre hrun path hpath
    have hhome := haway pre a t hpre hrun (Option.isSome_of_mem hpath)
    exact resolve_eq_iff.mpr ((WhereInv.of_run hrun).cwd_eq_iff.mpr hhome)

/-- While the command of one job runs, `create_job` looks for the directory of another job below
the directory of the first. -/
theorem not_pathUse_resolve_running :
    ¬ ∀ dir as, Along Server.step
      (fun t a => ∀ path ∈ t.pathUse a, resolve t.cwd path = resolve dir path) (.init dir) as := by
  intro h
  let req : JobRequest := ⟨1, Vector.replicate 16 2, 8, 1, 4⟩
  have hrun := h (cstr "/srv") (transferRun [.recv 60 60, .recv 40 40, .close]
    ++ [.client (.receive (fillBuffer (req.datagram 0 (cstr "true")) 0) 36 ⟨2, 2⟩ 0
        (Vector.replicate 16 0)),
      .client (.stat none)])
  revert hrun
  decide +kernel

end Pcd
