import PcdProject.Server.JobLedger

/-!
# The answers to jobs

The JOB_RESULTs in the outbox of the server are those that the ledger notes: each was sent for one
job, to the address of the job, after a run of its command and with the status of this run.
-/

namespace Pcd

open Transition

/-! ### The answers of the server -/

/-- The JOB_RESULTs that are sent. -/
def Server.resultsSent (s : Server) (a : Action) : List (SockAddr × Reply) :=
  (s.jobEvents a).filterMap fun
    | .sent _ dst reply => some (dst, reply)
    | _                 => none

def Reply.isResult : Reply → Bool
  | .jobResult .. => true
  | _             => false

/-- What a step sends, and which JOB_RESULTs are among it. -/
def Server.Sends (s t : Server) (results : List (SockAddr × Reply)) : Prop :=
  ∃ out, t.outbox = s.outbox ++ out ∧ out.filter (·.2.isResult) = results

namespace Server.Sends

variable {s t : Server}

lemma nothing (h : t.outbox = s.outbox) : s.Sends t [] := by
  refine ⟨[], ?_, rfl⟩
  rw [h, List.append_nil]

lemma reply {dst : SockAddr} {reply : Reply} (hreply : reply.isResult = false)
    (h : t.outbox = s.outbox ++ [(dst, reply)]) : s.Sends t [] :=
  ⟨_, h, List.filter_cons_of_neg (by simp [hreply])⟩

lemma of_clientStep {a : ClientAction} (h : s.clientStep a = some t) :
    s.Sends t (s.resultsSent (.client a)) := by
  have hquiet : s.resultsSent (.client a) = [] := by
    unfold Server.resultsSent Server.jobEvents
    split
    · split <;> rfl
    · rename_i heq
      cases heq
    · rfl
  rw [hquiet]
  cases ClientBranch.of_clientStep h with
  | receive buffer n src now newId =>
    unfold Server.dispatch
    split
    · exact nothing rfl
    · exact reply rfl rfl
    all_goals exact nothing rfl
  | jobReply req src success =>
    refine reply ?_ rfl
    cases success <;> rfl
  | uploadReply | downloadMissing | downloadReply => exact reply rfl rfl
  | _ => exact nothing rfl

/-- The one step of `process_pending_jobs` that sends is its `sendto`. -/
lemma of_processingStep {a : ProcessingAction} (h : s.processingStep a = some t) :
    s.Sends t (s.resultsSent (.processing a)) := by
  have hquiet : a ≠ .sendto → s.resultsSent (.processing a) = [] := by
    intro hne
    unfold Server.resultsSent
    rw [List.filterMap_eq_nil_iff]
    unfold Server.jobEvents
    grind
  cases ProcessingRule.of_processingStep h with
  | sendto dir i status job hpc hjob =>
    refine ⟨_, rfl, ?_⟩
    have hresult : (jobResult job status).isResult = true := by
      unfold jobResult
      split_ifs <;> rfl
    simp [Server.resultsSent, Server.jobEvents, hpc, hjob, hresult]
  | _ =>
    rw [hquiet (by simp)]
    exact nothing rfl

lemma of_step {a : Action} (h : s.step a = some t) : s.Sends t (s.resultsSent a) := by
  cases SystemRule.of_step h with
  | client a _ _ => exact of_clientStep h
  | worker w a _ h => cases h <;> exact nothing rfl
  | processing a _ _ => exact of_processingStep h
  | download a _ h => cases h <;> exact nothing rfl
  | kick id =>
    refine ⟨kickNotice id s.clients, rfl, ?_⟩
    unfold kickNotice
    cases s.clients.find? fun c => c.clientId = id <;> rfl
  | sweep | limit | limitIgnored | connectUpload | connectDownload => exact nothing rfl

end Server.Sends

/-! ### The answers in the ledger -/

namespace Ledger

/-- The JOB_RESULTs that were sent, with the numbers of their jobs and where they were sent. -/
def answers (l : Ledger) : List (ℕ × SockAddr × Reply) :=
  l.notes.filterMap fun
    | .sent k dst reply => some (k, dst, reply)
    | _                 => none

/-- The answer is the one that its job calls for after a run of its command, and goes where the job
came from. -/
def Answers (l : Ledger) (k : ℕ) (dst : SockAddr) (reply : Reply) : Prop :=
  ∃ c ret, l.created[k]? = some c ∧ c.clientAddr = dst ∧ .ran k c.command ret ∈ l.notes ∧
    reply = jobResult c (exitStatus ret)

variable {l : Ledger} {k : ℕ} {dst : SockAddr} {reply : Reply}

lemma map_fst_answers (l : Ledger) : l.answers.map Prod.fst = l.answered := by
  rw [answers, answered, List.map_filterMap]
  congr 1
  funext n
  cases n <;> rfl

/-- A note that is no answer. -/
lemma answers_note (l : Ledger) (i : ℕ) (f : ℕ → JobNote)
    (hf : ∀ k k' dst reply, f k ≠ .sent k' dst reply) : (l.note i f).answers = l.answers := by
  cases hi : l.pending[i]? with
  | none => simp [note, answers, hi]
  | some k =>
    rw [note_eq f hi]
    cases hn : f k with
    | sent k' dst reply => exact absurd hn (hf k k' dst reply)
    | passBegin | ready | ran | removed => simp [answers]

/-- What the ledger says stays, whatever is added to it. -/
lemma Answers.mono {l' : Ledger} (h : l.Answers k dst reply) (hcreated : l.created <+: l'.created)
    (hnotes : l.notes <+: l'.notes) : l'.Answers k dst reply := by
  obtain ⟨c, ret, hc, haddr, hran, hreply⟩ := h
  obtain ⟨later, hlater⟩ := hcreated
  refine ⟨c, ret, ?_, haddr, hnotes.subset hran, hreply⟩
  rw [← hlater, List.getElem?_append_left (List.getElem?_eq_some_iff.mp hc).1]
  exact hc

lemma next_prefix (l : Ledger) (e : JobEvent) :
    l.created <+: (l.next e).created ∧ l.notes <+: (l.next e).notes := by
  cases e with
  | created job => exact ⟨List.prefix_append _ _, List.prefix_refl _⟩
  | passBegin | ready | ran | sent | removed =>
    exact ⟨List.prefix_refl _, List.prefix_append _ _⟩

lemma foldl_next_prefix (l : Ledger) (es : List JobEvent) :
    l.created <+: (es.foldl next l).created ∧ l.notes <+: (es.foldl next l).notes := by
  induction es generalizing l with
  | nil => exact ⟨List.prefix_refl _, List.prefix_refl _⟩
  | cons e es ih =>
    obtain ⟨hcreated, hnotes⟩ := l.next_prefix e
    obtain ⟨hcreated', hnotes'⟩ := ih (l.next e)
    exact ⟨hcreated.trans hcreated', hnotes.trans hnotes'⟩

end Ledger

/-- The JOB_RESULTs that the server has sent are the answers in the ledger. -/
structure AnswersInv (s : Server) (l : Ledger) : Prop where
  outbox  : s.outbox.filter (·.2.isResult) = l.answers.map Prod.snd
  answers : ∀ x ∈ l.answers, l.Answers x.1 x.2.1 x.2.2

namespace AnswersInv

variable {s t : Server} {a : Action} {l : Ledger}

lemma init (dir : Bytes) : AnswersInv (Server.init dir) (.ofEvents []) where
  outbox := rfl
  answers := by simp [Ledger.answers, Ledger.ofEvents]

/-- The events of a step add an answer to the ledger in the one case of a `sendto`. -/
lemma answers_step (hl : LedgerInv s l) (hstep : s.step a = some t) :
    ∃ new, ((s.jobEvents a).foldl Ledger.next l).answers = l.answers ++ new ∧
      new.map Prod.snd = s.resultsSent a ∧ ∀ x ∈ new, l.Answers x.1 x.2.1 x.2.2 := by
  rw [Server.resultsSent]
  cases JobRule.of_step hstep with
  | keep hevents | create _ hevents | enter _ _ hevents | allocate _ _ _ hevents =>
    rw [hevents]
    exact ⟨[], (List.append_nil _).symm, rfl, by simp⟩
  | turn hevents =>
    rcases hevents with hevents | hevents <;> rw [hevents] <;>
      exact ⟨[], by simp [Ledger.next, Ledger.answers], rfl, by simp⟩
  | ready dir i job hevents =>
    rw [hevents]
    exact ⟨[], by simp [Ledger.next, Ledger.answers_note], rfl, by simp⟩
  | ran dir i ret hevents =>
    rw [hevents]
    refine ⟨[], ?_, ?_, by simp⟩ <;> cases s.pendingJobs[i]? <;>
      simp [Ledger.next, Ledger.answers_note]
  | removed dir i hevents =>
    rw [hevents]
    refine ⟨[], ?_, rfl, by simp⟩
    have hnote := l.answers_note i .removed (by simp)
    rw [List.append_nil]
    exact hnote
  | sent dir i status job hevents hjobs hjob hpc =>
    have hstage := hl.stage
    rw [hpc] at hstage
    obtain ⟨k, before, c, job₀, ret, hk, hc, -, -, rfl, hnotes⟩ := hstage
    -- the job in the table is the one whose command was run
    obtain ⟨job', hjob', hcontent⟩ := hl.entry hk hc
    obtain rfl : job = job' := Option.some.inj (hjob.symm.trans hjob')
    have haddr : job.clientAddr = c.clientAddr := congrArg (fun x => x.2.1) hcontent
    rw [hevents]
    refine ⟨[(k, job.clientAddr, jobResult job (exitStatus ret))], ?_, rfl, ?_⟩
    · simp [Ledger.next, Ledger.note_eq _ hk, Ledger.answers]
    · intro x hx
      obtain rfl := List.mem_singleton.mp hx
      refine ⟨c, ret, hc, haddr.symm, ?_, jobResult_congr hcontent _⟩
      simp [hnotes]

lemma step (hl : LedgerInv s l) (h : AnswersInv s l) (hstep : s.step a = some t) :
    AnswersInv t ((s.jobEvents a).foldl Ledger.next l) := by
  obtain ⟨out, hout, hresults⟩ := Server.Sends.of_step hstep
  obtain ⟨new, hnew, hsent, hanswers⟩ := answers_step hl hstep
  obtain ⟨hcreated, hnotes⟩ := l.foldl_next_prefix (s.jobEvents a)
  constructor
  · rw [hout, List.filter_append, h.outbox, hresults, hnew, List.map_append, hsent]
  · intro x hx
    rw [hnew] at hx
    rcases List.mem_append.mp hx with hx | hx
    · exact (h.answers x hx).mono hcreated hnotes
    · exact (hanswers x hx).mono hcreated hnotes

lemma of_run {dir : Bytes} {as : List Action} (h : run Server.step (.init dir) as = some s) :
    AnswersInv s (.ofRun dir as) := by
  have hinv : LedgerInv s (.ofRun dir as) ∧ AnswersInv s (.ofRun dir as) := by
    refine along_trace_invariant
      (I := fun s es => LedgerInv s (.ofEvents es) ∧ AnswersInv s (.ofEvents es))
      (C := fun _ _ => True) ⟨.init dir, init dir⟩ ?_ (fun _ _ _ _ _ => trivial) h
    rintro s a t es ⟨hl, hs⟩ - hstep
    rw [Ledger.ofEvents, List.foldl_append]
    exact ⟨hl.step hstep, hs.step hl hstep⟩
  exact hinv.2

end AnswersInv

/-! ### Main result -/

/-- Jobs are conserved: in every run the table is a subsequence, in the order of creation, of the
jobs for which `create_job` returned 1; their number is the number of the jobs in the table and of
the removals; a job is removed right after the pass found it ready, ran its command and sent one
JOB_RESULT with its job id to its address; no job gets more than one JOB_RESULT; and the answers
that are noted are the JOB_RESULTs in the outbox. -/
theorem jobs_conserved {dir : Bytes} {as : List Action} {s : Server}
    (h : run Server.step (.init dir) as = some s) :
    (s.pendingJobs.map PendingJob.content).Sublist
        ((Ledger.ofRun dir as).created.map PendingJob.content) ∧
      (Ledger.ofRun dir as).created.length
        = s.pendingJobs.length + (Ledger.ofRun dir as).removed.length ∧
      (∀ pre k, pre ++ [.removed k] <+: (Ledger.ofRun dir as).notes →
        (Ledger.ofRun dir as).Processed k pre) ∧
      (Ledger.ofRun dir as).answered.Nodup ∧
      (Ledger.ofRun dir as).answers.map Prod.fst = (Ledger.ofRun dir as).answered ∧
      s.outbox.filter (·.2.isResult) = (Ledger.ofRun dir as).answers.map Prod.snd := by
  have hinv := LedgerInv.of_run h
  exact ⟨hinv.content_sublist, hinv.length_created, hinv.history, hinv.nodup_answered,
    Ledger.map_fst_answers _, (AnswersInv.of_run h).outbox⟩

theorem jobs_conserved_processRun :
    ∃ s, run Server.step (.init []) processRun = some s ∧
      (s.pendingJobs.map PendingJob.content).Sublist
        ((Ledger.ofRun [] processRun).created.map PendingJob.content) ∧
      (Ledger.ofRun [] processRun).created.length
        = s.pendingJobs.length + (Ledger.ofRun [] processRun).removed.length ∧
      (∀ pre k, pre ++ [.removed k] <+: (Ledger.ofRun [] processRun).notes →
        (Ledger.ofRun [] processRun).Processed k pre) ∧
      (Ledger.ofRun [] processRun).answered.Nodup ∧
      (Ledger.ofRun [] processRun).answers.map Prod.fst = (Ledger.ofRun [] processRun).answered ∧
      s.outbox.filter (·.2.isResult) = (Ledger.ofRun [] processRun).answers.map Prod.snd := by
  obtain ⟨s, hs⟩ := Option.isSome_iff_exists.mp
    (show (run Server.step (.init []) processRun).isSome = true by decide +kernel)
  exact ⟨s, hs, jobs_conserved hs⟩

end Pcd
