import PcdProject.Server.ReadyJobs

/-!
# Conservation of jobs

A ledger numbers the jobs for which `create_job` returned 1 and notes what `process_pending_jobs`
does with which of them. The table holds the jobs that were not removed, in the order of their
creation, and a job is removed right after it was found ready, its command was run and its one
JOB_RESULT was sent.
-/

namespace Pcd

open Transition

/-! ### What happens to jobs -/

/-- The fields of a pending job that do not change. -/
def PendingJob.content (job : PendingJob) : ClientId × SockAddr × UInt32 × Bytes × ℕ :=
  (job.clientId, job.clientAddr, job.jobId, job.command, job.fileCount)

/-- The status that `process_pending_jobs` derives from the result of `system`. -/
def exitStatus (ret : ℤ) : StatusCode := if ret = 0 then .ok else .error

/-- What a step does to jobs, those in the table being given by their index. -/
inductive JobEvent where
  | created (job : PendingJob)
  | passBegin
  | ready (i : ℕ) (job : PendingJob)
  | ran (i : ℕ) (command : Bytes) (ret : ℤ)
  | sent (i : ℕ) (dst : SockAddr) (reply : Reply)
  | removed (i : ℕ)

/-- `created` is the event of a call of `create_job` that returns 1. -/
def Server.jobEvents (s : Server) (a : Action) : List JobEvent :=
  match a with
  | .client (.append true now) =>
    match s.clientThread with
    | .jobAppend req cmd src => [.created (.create req cmd src now)]
    | _ => []
  | .processing a =>
    match s.processing, a with
    | .locking _, .lock => [.passBegin]
    | .scanning _ i, .check =>
      match s.pendingJobs[i]? with
      | some job => if job.filesReceived ≥ job.fileCount then [.ready i job] else []
      | none     => []
    | .running _ i, .system ret => (s.pendingJobs[i]?).toList.map fun job => .ran i job.command ret
    | .sending _ i status, .sendto =>
      (s.pendingJobs[i]?).toList.map fun job => .sent i job.clientAddr (jobResult job status)
    | .removing _ i, .remove => [.removed i]
    | _, _ => []
  | _ => []

/-! ### The ledger -/

/-- What happened to the job with the given number. -/
inductive JobNote where
  | passBegin
  | ready (k : ℕ) (job : PendingJob)
  | ran (k : ℕ) (command : Bytes) (ret : ℤ)
  | sent (k : ℕ) (dst : SockAddr) (reply : Reply)
  | removed (k : ℕ)

/-- The jobs as they were created, the numbers of those in the table, and the notes. -/
structure Ledger where
  created : List PendingJob
  pending : List ℕ
  notes : List JobNote

namespace Ledger

/-- The note on an event for the job at index `i`. -/
def note (l : Ledger) (i : ℕ) (f : ℕ → JobNote) : Ledger :=
  { l with notes := l.notes ++ (l.pending[i]?).toList.map f }

def next (l : Ledger) : JobEvent → Ledger
  | .created job        =>
    { l with created := l.created ++ [job], pending := l.pending ++ [l.created.length] }
  | .passBegin          => { l with notes := l.notes ++ [.passBegin] }
  | .ready i job        => l.note i (.ready · job)
  | .ran i command ret  => l.note i (.ran · command ret)
  | .sent i dst reply   => l.note i (.sent · dst reply)
  | .removed i          => { l.note i .removed with pending := l.pending.eraseIdx i }

def ofEvents (events : List JobEvent) : Ledger := events.foldl next ⟨[], [], []⟩

/-- The ledger of a run of the server started in `dir`. -/
def ofRun (dir : Bytes) (as : List Action) : Ledger :=
  ofEvents (trace Server.step Server.jobEvents (.init dir) as)

/-- The numbers of the jobs that were removed, in this order. -/
def removed (l : Ledger) : List ℕ :=
  l.notes.filterMap fun
    | .removed k => some k
    | _          => none

/-- The numbers of the jobs for which a JOB_RESULT was sent, in this order. -/
def answered (l : Ledger) : List ℕ :=
  l.notes.filterMap fun
    | .sent k _ _ => some k
    | _           => none

/-- The notes on a job in front of its removal. -/
def Processed (l : Ledger) (k : ℕ) (notes : List JobNote) : Prop :=
  ∃ before c job ret, l.created[k]? = some c ∧ job.content = c.content ∧
    job.fileCount ≤ job.filesReceived ∧
    notes = before ++ [.ready k job, .ran k c.command ret,
      .sent k c.clientAddr (jobResult c (exitStatus ret))]

end Ledger

/-! ### The steps, as far as the ledger goes -/

/-- The index of the job that `process_pending_jobs` is about to remove. -/
def Processing.removing? : Processing → Option ℕ
  | .removing _ i => some i
  | _             => none

/-- The locations between two jobs. -/
def Processing.idle : Processing → Bool
  | .sleeping | .locking _ | .scanning _ _ | .returning _ _ => true
  | _ => false

inductive JobRule (s t : Server) (a : Action) : Prop where
  | keep (hevents : s.jobEvents a = [])
      (hjobs : t.pendingJobs.map PendingJob.content = s.pendingJobs.map PendingJob.content)
      (hproc : t.processing = s.processing)
  | create (job : PendingJob) (hevents : s.jobEvents a = [.created job])
      (hjobs : t.pendingJobs = s.pendingJobs ++ [job]) (hidle : s.processing.idle = true)
      (hproc : t.processing = s.processing)
  | turn (hevents : s.jobEvents a = [] ∨ s.jobEvents a = [.passBegin])
      (hjobs : t.pendingJobs = s.pendingJobs) (hrem : s.processing.removing? = none)
      (hidle : t.processing.idle = true)
  | ready (dir : Bytes) (i : ℕ) (job : PendingJob) (hevents : s.jobEvents a = [.ready i job])
      (hjobs : t.pendingJobs = s.pendingJobs) (hjob : s.pendingJobs[i]? = some job)
      (hready : job.fileCount ≤ job.filesReceived) (hpc : s.processing = .scanning dir i)
      (hpc' : t.processing = .entering dir i)
  | enter (dir : Bytes) (i : ℕ) (hevents : s.jobEvents a = [])
      (hjobs : t.pendingJobs = s.pendingJobs) (hpc : s.processing = .entering dir i)
      (hpc' : t.processing = .running dir i)
  | ran (dir : Bytes) (i : ℕ) (ret : ℤ)
      (hevents : s.jobEvents a
        = (s.pendingJobs[i]?).toList.map fun job => .ran i job.command ret)
      (hjobs : t.pendingJobs = s.pendingJobs) (hpc : s.processing = .running dir i)
      (hpc' : t.processing = .allocating dir i (exitStatus ret))
  | allocate (dir : Bytes) (i : ℕ) (status : StatusCode) (hevents : s.jobEvents a = [])
      (hjobs : t.pendingJobs = s.pendingJobs) (hpc : s.processing = .allocating dir i status)
      (hpc' : t.processing = .sending dir i status)
  | sent (dir : Bytes) (i : ℕ) (status : StatusCode) (job : PendingJob)
      (hevents : s.jobEvents a = [.sent i job.clientAddr (jobResult job status)])
      (hjobs : t.pendingJobs = s.pendingJobs) (hjob : s.pendingJobs[i]? = some job)
      (hpc : s.processing = .sending dir i status) (hpc' : t.processing = .removing dir i)
  | removed (dir : Bytes) (i : ℕ) (hevents : s.jobEvents a = [.removed i])
      (hjobs : t.pendingJobs = s.pendingJobs.eraseIdx i) (hpc : s.processing = .removing dir i)
      (hpc' : t.processing = .returning dir i)

namespace JobRule

variable {s t : Server}

lemma idle_of_free (h : s.processing.holdsJobsMutex = false) : s.processing.idle = true := by
  cases hproc : s.processing <;> simp_all [Processing.holdsJobsMutex, Processing.idle]

lemma of_clientRule {a : ClientAction} (h : ClientRule s a t) : JobRule s t (.client a) := by
  have quiet : a.inserts = false → s.jobEvents (.client a) = [] := by
    intro hquiet
    unfold Server.jobEvents
    split
    · rename_i heq
      cases heq
      cases hquiet
    · rename_i heq
      cases heq
    · rfl
  cases h with
  | move _ pc out hquiet => exact .keep (quiet hquiet) rfl rfl
  | clients _ clients out hquiet => exact .keep (quiet hquiet) rfl rfl
  | appendJob req cmd src now hpc hfree =>
    exact .create _ (by simp [Server.jobEvents, hpc]) rfl (idle_of_free hfree) rfl
  | enqueueUpload | enqueueDownload => exact .keep rfl rfl rfl

lemma of_workerRule {w : ℕ} {a : WorkerAction} (h : WorkerRule s w a t) :
    JobRule s t (.worker w a) := by
  cases h with
  | update job remaining total now hpc hfree =>
    exact .keep rfl (map_countFile _ (fun _ _ _ => rfl) _ _ _) rfl
  | pick | lookup | accept | acceptFail | openFile | openFail | recv | shortWrite | hangup
  | close | finish => exact .keep rfl rfl rfl

lemma of_check {dir : Bytes} {i : ℕ} (hpc : s.processing = .scanning dir i)
    (h : s.processingStep .check = some t) : JobRule s t (.processing .check) := by
  simp only [Server.processingStep, hpc] at h
  split at h
  · rename_i hnone
    cases h
    exact .turn (.inl (by simp [Server.jobEvents, hpc, hnone])) rfl
      (by simp [hpc, Processing.removing?]) rfl
  · rename_i job hjob
    split_ifs at h with hready <;> cases h
    · exact .ready dir i job (by simp [Server.jobEvents, hpc, hjob, hready]) rfl hjob hready hpc rfl
    · exact .turn (.inl (by simp [Server.jobEvents, hpc, hjob, hready])) rfl
        (by simp [hpc, Processing.removing?]) rfl

lemma of_processingStep {a : ProcessingAction} (h : s.processingStep a = some t) :
    JobRule s t (.processing a) := by
  cases ProcessingRule.of_processingStep h with
  | unlock dir i hpc | ready dir i job hpc | notReady dir i hpc => exact of_check hpc h
  | getcwd hpc =>
    exact .turn (.inl (by simp [Server.jobEvents, hpc])) rfl
      (by simp [hpc, Processing.removing?]) rfl
  | getcwdFail ok hpc => exact .keep (by simp [Server.jobEvents, hpc]) rfl rfl
  | lock dir hpc =>
    exact .turn (.inr (by simp [Server.jobEvents, hpc])) rfl
      (by simp [hpc, Processing.removing?]) rfl
  | chdir dir i job hpc hjob => exact .enter dir i (by simp [Server.jobEvents, hpc]) rfl hpc rfl
  | chdirFail dir i hpc =>
    exact .turn (.inl (by simp [Server.jobEvents, hpc])) rfl
      (by simp [hpc, Processing.removing?]) rfl
  | system dir i ret status hpc =>
    have hstatus : exitStatus ret = status := by
      simpa [Server.processingStep, hpc, exitStatus] using h
    exact .ran dir i ret (by simp [Server.jobEvents, hpc]) rfl hpc (by rw [hstatus])
  | malloc dir i status hpc =>
    exact .allocate dir i status (by simp [Server.jobEvents, hpc]) rfl hpc rfl
  | mallocFail dir i status hpc =>
    exact .turn (.inl (by simp [Server.jobEvents, hpc])) rfl
      (by simp [hpc, Processing.removing?]) rfl
  | sendto dir i status job hpc hjob =>
    exact .sent dir i status job (by simp [Server.jobEvents, hpc, hjob]) rfl hjob hpc rfl
  | remove dir i hpc => exact .removed dir i (by simp [Server.jobEvents, hpc]) rfl hpc rfl
  | chdirBack dir i ok hpc =>
    exact .turn (.inl (by simp [Server.jobEvents, hpc])) rfl
      (by simp [hpc, Processing.removing?]) rfl

lemma of_step {a : Action} (h : s.step a = some t) : JobRule s t a := by
  cases SystemRule.of_step h with
  | client a _ h => exact of_clientRule h
  | worker w a _ h => exact of_workerRule h
  | processing a _ _ => exact of_processingStep h
  | download a _ h => cases h <;> exact .keep rfl rfl rfl
  | sweep | kick | limit | limitIgnored | connectUpload | connectDownload => exact .keep rfl rfl rfl

end JobRule

/-! ### The invariant -/

/-- The last notes when `process_pending_jobs` is somewhere between the test of a job and its
removal. -/
def Ledger.AtStage (l : Ledger) : Processing → Prop
  | .entering _ i | .running _ i =>
    ∃ k before c job, l.pending[i]? = some k ∧ l.created[k]? = some c ∧
      job.content = c.content ∧ job.fileCount ≤ job.filesReceived ∧
      l.notes = before ++ [.ready k job]
  | .allocating _ i status | .sending _ i status =>
    ∃ k before c job ret, l.pending[i]? = some k ∧ l.created[k]? = some c ∧
      job.content = c.content ∧ job.fileCount ≤ job.filesReceived ∧ status = exitStatus ret ∧
      l.notes = before ++ [.ready k job, .ran k c.command ret]
  | .removing _ i => ∃ k, l.pending[i]? = some k ∧ l.Processed k l.notes
  | _ => True

/-- The notes agree with the table, with the location of `process_pending_jobs` and with each
other. -/
structure LedgerInv (s : Server) (l : Ledger) : Prop where
  entries  : (s.pendingJobs.map PendingJob.content).map some
    = l.pending.map fun k => (l.created[k]?).map PendingJob.content
  order    : l.pending.Sublist (List.range l.created.length)
  numbers  : (l.removed ++ l.pending).Perm (List.range l.created.length)
  answered : l.answered = l.removed ++ (s.processing.removing?.bind (l.pending[·]?)).toList
  stage    : l.AtStage s.processing
  history  : ∀ pre k, pre ++ [.removed k] <+: l.notes → l.Processed k pre

section Notes

variable {l l' : Ledger} {i k : ℕ} {n : JobNote} {notes : List JobNote} {p : Processing}

lemma Ledger.note_eq (f : ℕ → JobNote) (hk : l.pending[i]? = some k) :
    l.note i f = { l with notes := l.notes ++ [f k] } := by
  simp [note, hk]

lemma Ledger.atStage_of_idle (h : p.idle = true) : l.AtStage p := by
  cases p <;> trivial

lemma Processing.removing?_of_idle (h : p.idle = true) : p.removing? = none := by
  cases p <;> first | rfl | cases h

lemma Ledger.Processed.mono (h : l.Processed k notes) (hcreated : l.created <+: l'.created) :
    l'.Processed k notes := by
  obtain ⟨before, c, job, ret, hc, hrest⟩ := h
  obtain ⟨later, hlater⟩ := hcreated
  refine ⟨before, c, job, ret, ?_, hrest⟩
  rw [← hlater, List.getElem?_append_left (List.getElem?_eq_some_iff.mp hc).1]
  exact hc

/-- A new note that is no removal leaves the notes in front of removals as they are. -/
lemma Ledger.history_concat (h : ∀ pre k, pre ++ [.removed k] <+: notes → l.Processed k pre)
    (hn : ∀ k, n ≠ .removed k) :
    ∀ pre k, pre ++ [.removed k] <+: notes ++ [n] → l.Processed k pre := by
  intro pre k hpre
  rcases List.prefix_concat_iff.mp hpre with heq | hpre
  · obtain ⟨-, hlast⟩ := List.append_inj' heq rfl
    exact absurd (List.cons.inj hlast).1.symm (hn k)
  · exact h pre k hpre

/-- What the answer says is part of what does not change. -/
lemma jobResult_congr {job c : PendingJob} (h : job.content = c.content) (status : StatusCode) :
    jobResult job status = jobResult c status := by
  have hid : job.jobId = c.jobId := congrArg (fun x => x.2.2.1) h
  simp only [jobResult, hid]

end Notes

namespace LedgerInv

variable {s t : Server} {a : Action} {l : Ledger}

lemma init (dir : Bytes) : LedgerInv (Server.init dir) (.ofEvents []) where
  entries := rfl
  order := List.Sublist.slnil
  numbers := .refl _
  answered := rfl
  stage := trivial
  history := by
    intro pre k hpre
    simp [Ledger.ofEvents] at hpre

/-- The number of a job in the table, and the job as it was created. -/
lemma lookup (h : LedgerInv s l) {i : ℕ} {job : PendingJob} (hjob : s.pendingJobs[i]? = some job) :
    ∃ k c, l.pending[i]? = some k ∧ l.created[k]? = some c ∧ job.content = c.content := by
  have hi := congrArg (·[i]?) h.entries
  simp only [List.getElem?_map, hjob, Option.map_some] at hi
  obtain ⟨k, hk, hc⟩ := Option.map_eq_some_iff.mp hi.symm
  obtain ⟨c, hc, hcontent⟩ := Option.map_eq_some_iff.mp hc
  exact ⟨k, c, hk, hc, hcontent.symm⟩

/-- The job in the table that has the number. -/
lemma entry (h : LedgerInv s l) {i k : ℕ} {c : PendingJob} (hk : l.pending[i]? = some k)
    (hc : l.created[k]? = some c) :
    ∃ job, s.pendingJobs[i]? = some job ∧ job.content = c.content := by
  have hi := congrArg (·[i]?) h.entries
  simp only [List.getElem?_map, hk, hc, Option.map_some] at hi
  obtain ⟨x, hx, hxc⟩ := Option.map_eq_some_iff.mp hi
  obtain ⟨job, hjob, rfl⟩ := Option.map_eq_some_iff.mp hx
  exact ⟨job, hjob, Option.some.inj hxc⟩

lemma keep (h : LedgerInv s l)
    (hjobs : t.pendingJobs.map PendingJob.content = s.pendingJobs.map PendingJob.content)
    (hproc : t.processing = s.processing) : LedgerInv t l where
  entries := hjobs ▸ h.entries
  order := h.order
  numbers := h.numbers
  answered := hproc ▸ h.answered
  stage := hproc ▸ h.stage
  history := h.history

lemma create (h : LedgerInv s l) {job : PendingJob} (hjobs : t.pendingJobs = s.pendingJobs ++ [job])
    (hidle : s.processing.idle = true) (hproc : t.processing = s.processing) :
    LedgerInv t (l.next (.created job)) := by
  have hmem : ∀ k ∈ l.pending, k < l.created.length := by
    intro k hk
    exact List.mem_range.mp (h.order.subset hk)
  have hlength : (l.created ++ [job]).length = l.created.length + 1 := by simp
  refine ⟨?_, ?_, ?_, ?_, ?_, ?_⟩
  · have hold : l.pending.map (fun k => ((l.created ++ [job])[k]?).map PendingJob.content)
        = l.pending.map fun k => (l.created[k]?).map PendingJob.content := by
      apply List.map_congr_left
      intro k hk
      rw [List.getElem?_append_left (hmem k hk)]
    simp only [Ledger.next, hjobs, List.map_append, hold, ← h.entries]
    simp
  · rw [Ledger.next, hlength, List.range_succ]
    exact h.order.append_right _
  · show (l.removed ++ (l.pending ++ [l.created.length])).Perm _
    rw [← List.append_assoc, Ledger.next, hlength, List.range_succ]
    exact h.numbers.append_right _
  · rw [hproc, Processing.removing?_of_idle hidle]
    have hanswered := h.answered
    rw [Processing.removing?_of_idle hidle] at hanswered
    exact hanswered
  · rw [hproc]
    exact Ledger.atStage_of_idle hidle
  · intro pre k hpre
    exact (h.history pre k hpre).mono (List.prefix_append _ _)

/-- A note that is no removal. -/
lemma noted (h : LedgerInv s l) {n : JobNote} (hjobs : t.pendingJobs = s.pendingJobs)
    (hn : ∀ k, n ≠ .removed k)
    (hanswered : Ledger.answered { l with notes := l.notes ++ [n] }
      = l.removed ++ (t.processing.removing?.bind (l.pending[·]?)).toList)
    (hstage : Ledger.AtStage { l with notes := l.notes ++ [n] } t.processing) :
    LedgerInv t { l with notes := l.notes ++ [n] } := by
  have hremoved : Ledger.removed { l with notes := l.notes ++ [n] } = l.removed := by
    cases n with
    | removed k => exact absurd rfl (hn k)
    | passBegin | ready | ran | sent => simp [Ledger.removed]
  refine ⟨hjobs ▸ h.entries, h.order, ?_, ?_, hstage, Ledger.history_concat h.history hn⟩
  · rw [hremoved]
    exact h.numbers
  · rw [hremoved]
    exact hanswered

/-- The answers are those to the removed jobs as long as no job is about to be removed. -/
lemma answered_eq (h : LedgerInv s l) (hrem : s.processing.removing? = none) :
    l.answered = l.removed := by
  have hanswered := h.answered
  rw [hrem] at hanswered
  simpa using hanswered

lemma turn (h : LedgerInv s l) (hevents : s.jobEvents a = [] ∨ s.jobEvents a = [.passBegin])
    (hjobs : t.pendingJobs = s.pendingJobs) (hrem : s.processing.removing? = none)
    (hidle : t.processing.idle = true) : LedgerInv t ((s.jobEvents a).foldl Ledger.next l) := by
  have hsame := h.answered_eq hrem
  rcases hevents with hevents | hevents
  · rw [hevents]
    refine ⟨hjobs ▸ h.entries, h.order, h.numbers, ?_, Ledger.atStage_of_idle hidle, h.history⟩
    simpa [Processing.removing?_of_idle hidle] using hsame
  · rw [hevents]
    refine h.noted hjobs (by simp) ?_ (Ledger.atStage_of_idle hidle)
    rw [Processing.removing?_of_idle hidle]
    simpa [Ledger.answered] using hsame

lemma ready (h : LedgerInv s l) {dir : Bytes} {i : ℕ} {job : PendingJob}
    (hjobs : t.pendingJobs = s.pendingJobs) (hjob : s.pendingJobs[i]? = some job)
    (hready : job.fileCount ≤ job.filesReceived) (hpc : s.processing = .scanning dir i)
    (hpc' : t.processing = .entering dir i) : LedgerInv t (l.next (.ready i job)) := by
  obtain ⟨k, c, hk, hc, hcontent⟩ := h.lookup hjob
  have hsame := h.answered_eq (by rw [hpc]; rfl)
  rw [Ledger.next, Ledger.note_eq _ hk]
  refine h.noted hjobs (by simp) ?_ ?_
  · simpa [hpc', Processing.removing?, Ledger.answered] using hsame
  · rw [hpc']
    exact ⟨k, l.notes, c, job, hk, hc, hcontent, hready, rfl⟩

lemma ran (h : LedgerInv s l) {dir : Bytes} {i : ℕ} {ret : ℤ}
    (hevents : s.jobEvents a = (s.pendingJobs[i]?).toList.map fun job => .ran i job.command ret)
    (hjobs : t.pendingJobs = s.pendingJobs) (hpc : s.processing = .running dir i)
    (hpc' : t.processing = .allocating dir i (exitStatus ret)) :
    LedgerInv t ((s.jobEvents a).foldl Ledger.next l) := by
  have hstage := h.stage
  rw [hpc] at hstage
  obtain ⟨k, before, c, job, hk, hc, hcontent, hready, hnotes⟩ := hstage
  have hsame := h.answered_eq (by rw [hpc]; rfl)
  -- the job that is executed is the one with the number of the last note
  obtain ⟨job', hjob', hcontent'⟩ := h.entry hk hc
  have hcommand : job'.command = c.command := congrArg (fun x => x.2.2.2.1) hcontent'
  rw [hevents, hjob', Option.toList_some, List.map_cons, List.map_nil, List.foldl_cons,
    List.foldl_nil, Ledger.next, Ledger.note_eq _ hk]
  refine h.noted hjobs (by simp) ?_ ?_
  · simpa [hpc', Processing.removing?, Ledger.answered] using hsame
  · rw [hpc']
    refine ⟨k, before, c, job, ret, hk, hc, hcontent, hready, rfl, ?_⟩
    simp [hnotes, hcommand]

lemma sent (h : LedgerInv s l) {dir : Bytes} {i : ℕ} {status : StatusCode} {job : PendingJob}
    (hjobs : t.pendingJobs = s.pendingJobs) (hjob : s.pendingJobs[i]? = some job)
    (hpc : s.processing = .sending dir i status) (hpc' : t.processing = .removing dir i) :
    LedgerInv t (l.next (.sent i job.clientAddr (jobResult job status))) := by
  have hstage := h.stage
  rw [hpc] at hstage
  obtain ⟨k, before, c, job₀, ret, hk, hc, hcontent, hready, rfl, hnotes⟩ := hstage
  obtain ⟨k', c', hk', hc', hjobc⟩ := h.lookup hjob
  obtain rfl : k = k' := Option.some.inj (hk.symm.trans hk')
  obtain rfl : c = c' := Option.some.inj (hc.symm.trans hc')
  have haddr : job.clientAddr = c.clientAddr := congrArg (fun x => x.2.1) hjobc
  have hsame := h.answered_eq (by rw [hpc]; rfl)
  rw [Ledger.next, Ledger.note_eq _ hk]
  refine h.noted hjobs (by simp) ?_ ?_
  · rw [hpc']
    simp only [Ledger.answered, List.filterMap_append] at hsame ⊢
    rw [hsame]
    simp [Processing.removing?, hk]
  · rw [hpc']
    refine ⟨k, hk, before, c, job₀, ret, hc, hcontent, hready, ?_⟩
    simp [hnotes, haddr, jobResult_congr hjobc]

lemma removal (h : LedgerInv s l) {dir : Bytes} {i : ℕ}
    (hjobs : t.pendingJobs = s.pendingJobs.eraseIdx i) (hpc : s.processing = .removing dir i)
    (hpc' : t.processing = .returning dir i) : LedgerInv t (l.next (.removed i)) := by
  have hstage := h.stage
  rw [hpc] at hstage
  obtain ⟨k, hk, hprocessed⟩ := hstage
  obtain ⟨hi, rfl⟩ := List.getElem?_eq_some_iff.mp hk
  have hremoved : Ledger.removed { l with notes := l.notes ++ [.removed l.pending[i]] }
      = l.removed ++ [l.pending[i]] := by
    simp [Ledger.removed]
  rw [Ledger.next, Ledger.note_eq _ hk]
  refine ⟨?_, ?_, ?_, ?_, ?_, ?_⟩
  · simp only [hjobs, ← List.eraseIdx_map, h.entries]
  · exact (List.eraseIdx_sublist _ _).trans h.order
  · refine List.Perm.trans ?_ h.numbers
    show (Ledger.removed { l with notes := _ } ++ l.pending.eraseIdx i).Perm _
    rw [hremoved, List.append_assoc]
    exact (List.getElem_cons_eraseIdx_perm hi).append_left _
  · have hanswered := h.answered
    rw [hpc] at hanswered
    show Ledger.answered { l with notes := _ } = Ledger.removed { l with notes := _ } ++ _
    rw [hremoved, hpc']
    simpa [Processing.removing?, Ledger.answered, hk] using hanswered
  · rw [hpc']
    trivial
  · intro pre k hpre
    rcases List.prefix_concat_iff.mp hpre with heq | hpre
    · obtain ⟨rfl, hlast⟩ := List.append_inj' heq rfl
      cases hlast
      exact hprocessed
    · exact h.history pre k hpre

lemma step (h : LedgerInv s l) (hstep : s.step a = some t) :
    LedgerInv t ((s.jobEvents a).foldl Ledger.next l) := by
  cases JobRule.of_step hstep with
  | keep hevents hjobs hproc =>
    rw [hevents]
    exact h.keep hjobs hproc
  | create job hevents hjobs hidle hproc =>
    rw [hevents]
    exact h.create hjobs hidle hproc
  | turn hevents hjobs hrem hidle => exact h.turn hevents hjobs hrem hidle
  | ready dir i job hevents hjobs hjob hready hpc hpc' =>
    rw [hevents]
    exact h.ready hjobs hjob hready hpc hpc'
  | enter dir i hevents hjobs hpc hpc' =>
    rw [hevents]
    refine ⟨hjobs ▸ h.entries, h.order, h.numbers, ?_, ?_, h.history⟩
    · simpa [hpc, hpc', Processing.removing?] using h.answered
    · simpa [hpc, hpc', Ledger.AtStage] using h.stage
  | ran dir i ret hevents hjobs hpc hpc' => exact h.ran hevents hjobs hpc hpc'
  | allocate dir i status hevents hjobs hpc hpc' =>
    rw [hevents]
    refine ⟨hjobs ▸ h.entries, h.order, h.numbers, ?_, ?_, h.history⟩
    · simpa [hpc, hpc', Processing.removing?] using h.answered
    · simpa [hpc, hpc', Ledger.AtStage] using h.stage
  | sent dir i status job hevents hjobs hjob hpc hpc' =>
    rw [hevents]
    exact h.sent hjobs hjob hpc hpc'
  | removed dir i hevents hjobs hpc hpc' =>
    rw [hevents]
    exact h.removal hjobs hpc hpc'

lemma of_run {dir : Bytes} {as : List Action} (h : run Server.step (.init dir) as = some s) :
    LedgerInv s (.ofRun dir as) := by
  refine along_trace_invariant (I := fun s es => LedgerInv s (.ofEvents es))
    (C := fun _ _ => True) (init dir) ?_ (fun _ _ _ _ _ => trivial) h
  intro s a t es hs _ hstep
  rw [Ledger.ofEvents, List.foldl_append]
  exact hs.step hstep

/-- The table is a subsequence of the created jobs, without what changes. -/
lemma content_sublist (h : LedgerInv s l) :
    (s.pendingJobs.map PendingJob.content).Sublist (l.created.map PendingJob.content) := by
  have hall : (List.range l.created.length).map
      (fun k => (l.created[k]?).map PendingJob.content)
        = (l.created.map PendingJob.content).map some := by
    apply List.ext_getElem (by simp)
    intro k hk hk'
    have hlt : k < l.created.length := by simpa using hk'
    simp [List.getElem?_eq_getElem hlt]
  have hsub := h.order.map fun k => (l.created[k]?).map PendingJob.content
  rw [← h.entries, hall] at hsub
  simpa [List.filterMap_map] using hsub.filterMap id

lemma length_created (h : LedgerInv s l) :
    l.created.length = s.pendingJobs.length + l.removed.length := by
  have hentries := congrArg List.length h.entries
  have hnumbers := h.numbers.length_eq
  simp only [List.length_map, List.length_append, List.length_range] at hentries hnumbers
  omega

/-- The removed jobs and one of the table have different numbers. -/
lemma nodup_removed_append (h : LedgerInv s l) (o : Option ℕ) :
    (l.removed ++ (o.bind (l.pending[·]?)).toList).Nodup := by
  have hall : (l.removed ++ l.pending).Nodup := h.numbers.nodup_iff.mpr List.nodup_range
  refine hall.sublist (List.Sublist.append_left ?_ _)
  cases hk : o.bind (l.pending[·]?) with
  | none => exact List.nil_sublist _
  | some k =>
    obtain ⟨i, -, hi⟩ := Option.bind_eq_some_iff.mp hk
    exact List.singleton_sublist.mpr (List.mem_of_getElem? hi)

/-- No job is answered twice. -/
lemma nodup_answered (h : LedgerInv s l) : l.answered.Nodup := by
  rw [h.answered]
  exact h.nodup_removed_append _

end LedgerInv

/-- A job with a file, executed and removed. -/
def processRun : List Action :=
  transferRun [.recv 60 60, .recv 40 40, .close]
    ++ [.processing (.system 0), .processing (.malloc true), .processing .sendto,
      .processing .remove, .processing (.chdirBack true), .processing .check]

end Pcd
