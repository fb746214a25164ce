import PcdProject.Core.Slots
import PcdProject.Server.JobLedger

/-!
# The array of the pending jobs

`pending_jobs` is an array of exactly `job_count` entries: a new job makes it larger, a removal
closes the gap and makes it smaller. The pass of `process_pending_jobs` keeps an index into the
array while it runs a command, and looks the entry up again behind it. An access faults (`none`) if
it is not within the array, if the cell was never written and if it does not find what the model of
the server finds in its list.
-/

namespace Pcd

open Transition

/-- `pending_jobs` and `job_count`. -/
structure PendingArray where
  pendingJobs : Slots PendingJob
  jobCount : ℕ

namespace PendingArray

def init : PendingArray := ⟨[], 0⟩

/-- The end of `create_job`. -/
def append (t : PendingArray) (job : PendingJob) (reallocOk : Bool) : Option PendingArray :=
  if reallocOk then do
    let m ← (t.pendingJobs.realloc (t.jobCount + 1)).store t.jobCount job
    some ⟨m, t.jobCount + 1⟩
  else some t

/-- The loops of `process_upload`, which stop at the first entry with the key. -/
def lookup (t : PendingArray) (key : JobKey) : Option (Option ℕ) :=
  Slots.search (fun job => job.key = key) t.pendingJobs 0 t.jobCount

/-- The final update of `process_upload`. -/
def count (t : PendingArray) (key : JobKey) (now : ℤ) : Option PendingArray := do
  match ← t.lookup key with
  | none   => some t
  | some i =>
    let job ← t.pendingJobs.load i
    let m ← t.pendingJobs.store i
      { job with filesReceived := job.filesReceived + 1, lastUpdate := now }
    some { t with pendingJobs := m }

/-- The condition of the loop of `process_pending_jobs`, and the entry if it holds. -/
def test (t : PendingArray) (i : ℕ) : Option (Option PendingJob) :=
  if i < t.jobCount then (t.pendingJobs.load i).map some else some none

/-- The removal in `process_pending_jobs`. The length of the `memmove` is unsigned. -/
def remove (t : PendingArray) (i : ℕ) : Option PendingArray :=
  if i < t.jobCount then do
    let m ← t.pendingJobs.closeGap i (t.jobCount - i - 1)
    some ⟨m.realloc (t.jobCount - 1), t.jobCount - 1⟩
  else none

/-- The cells of the array are the entries `jobs`. -/
structure Represents (t : PendingArray) (jobs : List PendingJob) : Prop where
  pendingJobs_eq : t.pendingJobs = jobs.map some
  jobCount_eq : t.jobCount = jobs.length

end PendingArray

/-! ### Accesses -/

/-- An access to the array, with what the server has to find there. -/
inductive ArrayAccess where
  | append (job : PendingJob) (reallocOk : Bool)
  | lookup (key : JobKey) (found : Bool)
  | count (key : JobKey) (now : ℤ)
  | test (i : ℕ) (job : Option PendingJob)
  | read (i : ℕ) (job : Option PendingJob)
  | remove (i : ℕ)

namespace ArrayAccess

def step (t : PendingArray) : ArrayAccess → Option PendingArray
  | .append job reallocOk => t.append job reallocOk
  | .lookup key found     => (t.lookup key).bind fun i => if i.isSome = found then some t else none
  | .count key now        => t.count key now
  | .test i job           => (t.test i).bind fun job' => if job' = job then some t else none
  | .read i job           =>
    (t.pendingJobs.load i).bind fun job' => if some job' = job then some t else none
  | .remove i             => t.remove i

/-- The access on the list of the entries. -/
def apply (jobs : List PendingJob) : ArrayAccess → List PendingJob
  | .append job reallocOk => if reallocOk then jobs ++ [job] else jobs
  | .count key now        => countFile key now jobs
  | .remove i             => jobs.eraseIdx i
  | .lookup _ _ | .test _ _ | .read _ _ => jobs

/-- The access finds on the list what it has to find, and has an entry to read or to remove. -/
def Holds (jobs : List PendingJob) : ArrayAccess → Prop
  | .append _ _ | .count _ _ => True
  | .lookup key found        => (jobs.any fun job => job.key = key) = found
  | .test i job              => jobs[i]? = job
  | .read i job              => jobs[i]? = job ∧ i < jobs.length
  | .remove i                => i < jobs.length

end ArrayAccess

/-- The accesses in a step of the server. A pass reads the entry for the name of its directory, for
the command, for the answer and for the address that the answer goes to. -/
def Server.arrayAccesses (s : Server) : Action → List ArrayAccess
  | .client (.append reallocOk now) =>
    match s.clientThread with
    | .jobAppend req cmd src => [.append (.create req cmd src now) reallocOk]
    | _                      => []
  | .worker w .lookup =>
    match s.workers[w]? with
    | some (.picked job) => [.lookup job.key (s.pendingJobs.any fun p => p.key = job.key)]
    | _                  => []
  | .worker w (.update now) =>
    match s.workers[w]? with
    | some (.transferred job _ _) => [.count job.key now]
    | _                           => []
  | .processing a =>
    match s.processing, a with
    | .scanning _ i, .check       => [.test i s.pendingJobs[i]?]
    | .entering _ i, .chdir _     => [.read i s.pendingJobs[i]?]
    | .running _ i, .system _     => [.read i s.pendingJobs[i]?]
    | .allocating _ i _, .malloc _ => [.read i s.pendingJobs[i]?]
    | .sending _ i _, .sendto     => [.read i s.pendingJobs[i]?]
    | .removing _ i, .remove      => [.remove i]
    | _, _                        => []
  | _ => []

/-! ### The accesses on the array and on the list -/

section Accesses

variable {t : PendingArray} {jobs : List PendingJob}

/-- The update of the first entry with the key. -/
lemma countFile_eq (key : JobKey) (now : ℤ) (jobs : List PendingJob) :
    countFile key now jobs = match jobs.findIdx? fun job => job.key = key with
      | none   => jobs
      | some i => jobs.modify i fun job =>
        { job with filesReceived := job.filesReceived + 1, lastUpdate := now } := by
  induction jobs with
  | nil => rfl
  | cons job jobs ih =>
    rw [countFile_cons, List.findIdx?_cons]
    by_cases hkey : job.key = key
    · simp [hkey]
    · simp only [hkey, if_false, decide_false, Bool.false_eq_true, ih]
      cases jobs.findIdx? fun job => job.key = key <;> rfl

namespace PendingArray.Represents

lemma init : Represents init [] := ⟨rfl, rfl⟩

lemma load (h : Represents t jobs) (i : ℕ) : t.pendingJobs.load i = jobs[i]? := by
  rw [h.pendingJobs_eq, Slots.load_map_some]

lemma lookup (h : Represents t jobs) (key : JobKey) :
    t.lookup key = some (jobs.findIdx? fun job => job.key = key) := by
  rw [PendingArray.lookup, h.pendingJobs_eq, h.jobCount_eq, Slots.search_map_some]

lemma append (h : Represents t jobs) (job : PendingJob) (reallocOk : Bool) :
    ∃ t', t.append job reallocOk = some t' ∧
      Represents t' (if reallocOk then jobs ++ [job] else jobs) := by
  cases reallocOk with
  | false => exact ⟨t, rfl, h⟩
  | true =>
    refine ⟨⟨(jobs ++ [job]).map some, t.jobCount + 1⟩, ?_, rfl, ?_⟩
    · rw [PendingArray.append, if_pos rfl, h.pendingJobs_eq, h.jobCount_eq,
        Slots.store_realloc_map_some]
      rfl
    · simp [h.jobCount_eq]

lemma count (h : Represents t jobs) (key : JobKey) (now : ℤ) :
    ∃ t', t.count key now = some t' ∧ Represents t' (countFile key now jobs) := by
  rw [PendingArray.count, h.lookup, countFile_eq]
  cases hi : jobs.findIdx? fun job => job.key = key with
  | none => exact ⟨t, rfl, h⟩
  | some i =>
    obtain ⟨hlt, -⟩ := List.findIdx?_eq_some_iff_findIdx_eq.mp hi
    have hjob : jobs[i]? = some jobs[i] := List.getElem?_eq_getElem hlt
    simp only [Option.bind_eq_bind, Option.bind_some, h.load, hjob]
    rw [h.pendingJobs_eq, Slots.store_map_some hlt]
    refine ⟨_, rfl, ?_, ?_⟩
    · rw [List.modify_eq_set_getElem? , hjob]
      rfl
    · simp [h.jobCount_eq]

lemma test (h : Represents t jobs) (i : ℕ) : t.test i = some jobs[i]? := by
  rw [PendingArray.test, h.load, h.jobCount_eq]
  split_ifs with hlt
  · rw [List.getElem?_eq_getElem hlt]
    rfl
  · rw [List.getElem?_eq_none_iff.mpr (by omega)]

lemma remove (h : Represents t jobs) {i : ℕ} (hi : i < jobs.length) :
    ∃ t', t.remove i = some t' ∧ Represents t' (jobs.eraseIdx i) := by
  obtain ⟨m, hgap, hrest⟩ := Slots.closeGap_map_some hi
  rw [PendingArray.remove, if_pos (h.jobCount_eq ▸ hi), h.pendingJobs_eq, h.jobCount_eq, hgap]
  refine ⟨_, rfl, hrest, ?_⟩
  rw [List.length_eraseIdx_of_lt hi]

/-- An access that holds on the list does not fault on the array. -/
lemma step (h : Represents t jobs) {x : ArrayAccess} (hx : x.Holds jobs) :
    ∃ t', x.step t = some t' ∧ Represents t' (x.apply jobs) := by
  cases x with
  | append job reallocOk => exact h.append job reallocOk
  | count key now => exact h.count key now
  | remove i => exact h.remove hx
  | lookup key found =>
    have hfound : (jobs.findIdx? fun job => job.key = key).isSome = found := by
      rw [List.findIdx?_isSome]
      exact hx
    refine ⟨t, ?_, h⟩
    rw [ArrayAccess.step, h.lookup, Option.bind_some, if_pos hfound]
  | test i job =>
    have hjob : jobs[i]? = job := hx
    refine ⟨t, ?_, h⟩
    rw [ArrayAccess.step, h.test, Option.bind_some, if_pos hjob]
  | read i job =>
    obtain ⟨hjob, hlt⟩ := hx
    refine ⟨t, ?_, h⟩
    rw [ArrayAccess.step, h.load, List.getElem?_eq_getElem hlt, Option.bind_some, ← hjob,
      List.getElem?_eq_getElem hlt, if_pos rfl]

end PendingArray.Represents

end Accesses

/-! ### The accesses of the server -/

section Server

variable {s t : Server} {a : Action} {l : Ledger}

/-- The index that the pass keeps between the test of a job and its removal. -/
def Processing.entered? : Processing → Option ℕ
  | .entering _ i | .running _ i | .allocating _ i _ | .sending _ i _ | .removing _ i => some i
  | _ => none

/-- The index that the pass keeps stays one of the table. -/
lemma LedgerInv.index_lt (h : LedgerInv s l) {i : ℕ} (hi : s.processing.entered? = some i) :
    i < s.pendingJobs.length := by
  obtain ⟨k, c, hk, hc⟩ : ∃ k c, l.pending[i]? = some k ∧ l.created[k]? = some c := by
    have hstage := h.stage
    cases hpc : s.processing <;> rw [hpc] at hi hstage <;> cases hi
    case entering | running =>
      obtain ⟨k, _, c, _, hk, hc, -⟩ := hstage
      exact ⟨k, c, hk, hc⟩
    case allocating | sending =>
      obtain ⟨k, _, c, _, _, hk, hc, -⟩ := hstage
      exact ⟨k, c, hk, hc⟩
    case removing =>
      obtain ⟨k, hk, _, c, _, _, hc, -⟩ := hstage
      exact ⟨k, c, hk, hc⟩
  obtain ⟨job, hjob, -⟩ := h.entry hk hc
  exact (List.getElem?_eq_some_iff.mp hjob).1

/-- What the accesses of a step do to the list, if they hold on it. -/
def Accesses (s t : Server) (xs : List ArrayAccess) : Prop :=
  xs = [] ∧ t.pendingJobs = s.pendingJobs ∨
    ∃ x, xs = [x] ∧ x.Holds s.pendingJobs ∧ t.pendingJobs = x.apply s.pendingJobs

lemma accesses_of_clientStep {a : ClientAction} (h : s.clientStep a = some t) :
    Accesses s t (s.arrayAccesses (.client a)) := by
  cases ClientBranch.of_clientStep h with
  | append req cmd src now hpc hfree =>
    exact .inr ⟨.append (.create req cmd src now) true, by simp [Server.arrayAccesses, hpc],
      trivial, rfl⟩
  | appendFail req cmd src now hpc hfree =>
    exact .inr ⟨.append (.create req cmd src now) false, by simp [Server.arrayAccesses, hpc],
      trivial, rfl⟩
  | receive buffer n src now newId =>
    refine .inl ⟨rfl, ?_⟩
    unfold Server.dispatch
    split <;> rfl
  | _ => exact .inl ⟨rfl, rfl⟩

lemma accesses_of_workerStep {w : ℕ} {a : WorkerAction} (h : s.workerStep w a = some t) :
    Accesses s t (s.arrayAccesses (.worker w a)) := by
  cases WorkerRule.of_workerStep h with
  | lookup job pc hpc hfree =>
    exact .inr ⟨.lookup job.key (s.pendingJobs.any fun p => p.key = job.key),
      by simp [Server.arrayAccesses, hpc], rfl, rfl⟩
  | update job remaining total now hpc hfree =>
    exact .inr ⟨.count job.key now, by simp [Server.arrayAccesses, hpc], trivial, rfl⟩
  | _ => exact .inl ⟨rfl, rfl⟩

lemma accesses_of_processingStep (hl : LedgerInv s l) {a : ProcessingAction}
    (h : s.processingStep a = some t) : Accesses s t (s.arrayAccesses (.processing a)) := by
  have hread : ∀ i, s.processing.entered? = some i → t.pendingJobs = s.pendingJobs →
      Accesses s t [.read i s.pendingJobs[i]?] := by
    intro i hi hjobs
    exact .inr ⟨_, rfl, ⟨rfl, hl.index_lt hi⟩, hjobs⟩
  have htest : ∀ dir i, s.processing = .scanning dir i → t.pendingJobs = s.pendingJobs →
      Accesses s t (s.arrayAccesses (.processing .check)) := by
    intro dir i hpc hjobs
    exact .inr ⟨.test i s.pendingJobs[i]?, by simp [Server.arrayAccesses, hpc], rfl, hjobs⟩
  cases ProcessingRule.of_processingStep h with
  | getcwd hpc | getcwdFail ok hpc | lock dir hpc | chdirBack dir i ok hpc =>
    exact .inl ⟨by simp [Server.arrayAccesses, hpc], rfl⟩
  | unlock dir i hpc | ready dir i job hpc | notReady dir i hpc => exact htest dir i hpc rfl
  | chdir dir i job hpc | chdirFail dir i hpc | system dir i ret status hpc
  | malloc dir i status hpc | mallocFail dir i status hpc | sendto dir i status job hpc =>
    have haccess := hread i (by rw [hpc]; rfl) rfl
    simpa [Server.arrayAccesses, hpc] using haccess
  | remove dir i hpc =>
    have hlt := hl.index_lt (i := i) (by rw [hpc]; rfl)
    exact .inr ⟨.remove i, by simp [Server.arrayAccesses, hpc], hlt, rfl⟩

lemma accesses_of_step (hl : LedgerInv s l) (h : s.step a = some t) :
    Accesses s t (s.arrayAccesses a) := by
  cases SystemRule.of_step h with
  | client a _ _ => exact accesses_of_clientStep h
  | worker w a _ _ => exact accesses_of_workerStep h
  | processing a _ _ => exact accesses_of_processingStep hl h
  | download a _ h => cases h <;> exact .inl ⟨rfl, rfl⟩
  | sweep | kick | limit | limitIgnored | connectUpload | connectDownload =>
    exact .inl ⟨rfl, rfl⟩

/-- In every run the accesses of the threads to `pending_jobs` stay within the array, read no cell
that was never written and find what the server finds in its list; the array has exactly
`job_count` entries behind every step, and they are those of the list. -/
theorem pendingJobs_represented {dir : Bytes} {as : List Action}
    (h : run Server.step (.init dir) as = some s) :
    ∃ t, run ArrayAccess.step .init (trace Server.step Server.arrayAccesses (.init dir) as)
        = some t ∧ t.Represents s.pendingJobs := by
  refine run_induction (P := fun as s => ∃ t, run ArrayAccess.step .init
    (trace Server.step Server.arrayAccesses (.init dir) as) = some t ∧
      t.Represents s.pendingJobs) ?_ ?_ h
  · exact ⟨.init, rfl, .init⟩
  · rintro as a s t hrun hstep ⟨m, hm, hrep⟩
    rw [trace_concat a hrun, run_append, hm, Option.bind_some]
    rcases accesses_of_step (LedgerInv.of_run hrun) hstep with
      ⟨hnone, hjobs⟩ | ⟨x, hx, hholds, hjobs⟩
    · rw [hnone, hjobs]
      exact ⟨m, rfl, hrep⟩
    · obtain ⟨m', hm', hrep'⟩ := hrep.step hholds
      rw [hx, hjobs]
      exact ⟨m', by simp [hm'], hrep'⟩

end Server

/-- A job with a file, executed and removed. -/
theorem pendingJobs_represented_processRun :
    ∃ s t, run Server.step (.init []) processRun = some s ∧
      run ArrayAccess.step .init (trace Server.step Server.arrayAccesses (.init []) processRun)
        = some t ∧ t.Represents s.pendingJobs := by
  obtain ⟨s, hs⟩ := Option.isSome_iff_exists.mp
    (show (run Server.step (.init []) processRun).isSome = true by decide +kernel)
  obtain ⟨t, ht⟩ := pendingJobs_represented hs
  exact ⟨s, t, hs, ht⟩

end Pcd
