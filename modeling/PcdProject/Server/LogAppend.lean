import PcdProject.Server.AdminEffects
import PcdProject.Server.JobAnswers
import PcdProject.Server.LogQueue

/-!
# What the server logs

`log_append` and its calls in `handle_udp_message` and `process_pending_jobs`. The lines of the
processing thread tell which commands were run: the start of a job is followed by its end, unless
the job directory could not be entered.
-/

namespace Pcd

open CText Transition

/-! ### The text of a line -/

/-- What `strftime` writes into `time_str`. -/
structure TimeText where
  bytes : Bytes
  notMem : 0 ∉ bytes
  length_lt : bytes.length < 32

inductive LogCategory where
  | client
  | job
  | processing
  deriving DecidableEq

def LogCategory.text : LogCategory → Bytes
  | .client     => cstr "[CLIENT]"
  | .job        => cstr "[JOB]"
  | .processing => cstr "[PROCESSING]"

/-- A call of `log_append`. -/
inductive LogEvent where
  | assigned (id : ClientId) (addr : SockAddr)
  | heartbeat (id : ClientId)
  | job (jobId : UInt32) (id : ClientId) (created : Bool)
  | starting (jobId : UInt32) (id : ClientId) (command : Bytes)
  | completed (jobId : UInt32) (id : ClientId) (status : StatusCode)
  deriving DecidableEq

namespace LogEvent

def category : LogEvent → LogCategory
  | .assigned ..                => .client
  | .heartbeat ..               => .client
  | .job ..                     => .job
  | .starting .. | .completed .. => .processing

/-- `%02x%02x` of the first bytes of a client id. -/
def idText (id : ClientId) : Bytes := hex02 id.leading.1 ++ hex02 id.leading.2

/-- The message, which `vsnprintf` writes. -/
def message : LogEvent → Bytes
  | .assigned id addr             =>
    cstr "Assigned client_id=" ++ idText id ++ cstr " to " ++ inetNtop addr.ip ++ cstr ":"
      ++ decimal (htons addr.port).toNat
  | .heartbeat id                 => cstr "Updated hearbeat for client " ++ idText id
  | .job jobId id created         =>
    cstr "Job " ++ decimal jobId.toNat ++ cstr " for client " ++ idText id
      ++ (if created then cstr " created succesfully." else cstr " failed.")
  | .starting jobId id command    =>
    cstr "Starting job_id=" ++ decimal jobId.toNat ++ cstr " for client_id=0x" ++ hex02 id.leading.1
      ++ cstr "0x" ++ hex02 id.leading.2 ++ cstr " (command='" ++ command.takeWhile (· ≠ 0)
      ++ cstr "')"
  | .completed jobId id status    =>
    cstr "Job_id=" ++ decimal jobId.toNat ++ cstr " for client_id=0x" ++ hex02 id.leading.1
      ++ cstr "0x" ++ hex02 id.leading.2 ++ cstr " completed with status="
      ++ (if status = .ok then cstr "OK" else cstr "ERROR")

/-- `"%s %s "` -/
def linePrefix (e : LogEvent) (time : TimeText) : Bytes :=
  e.category.text ++ cstr " " ++ time.bytes ++ cstr " "

/-- The line without a limit on its length. -/
def text (e : LogEvent) (time : TimeText) : Bytes := e.linePrefix time ++ e.message

/-- The line as the queue holds it. -/
def entry (e : LogEvent) (time : TimeText) : Bytes := (e.text time).take (LOG_ENTRY_MAX - 1)

end LogEvent

/-- `buf` of `log_append`, which holds `stack` in the beginning; `none` if
`sizeof(buf) - prefix_len` wraps around. -/
def logBuf (stack : LogEntry) (e : LogEvent) (time : TimeText) : Option LogEntry :=
  (CBuffer.snprintf stack 0 (e.linePrefix time)).bind fun buf =>
    CBuffer.snprintf buf (e.linePrefix time).length e.message

/-- `log_append` -/
def LogQueue.logAppend (q : LogQueue) (stack : LogEntry) (e : LogEvent) (time : TimeText) :
    Option LogQueue :=
  (logBuf stack e time).bind fun buf =>
    q.push ⟨CBuffer.string buf, CBuffer.zero_notMem_string buf⟩

/-! ### Lines are strings -/

section Text

variable {e : LogEvent} {time : TimeText}

lemma zero_notMem_decimal (n : ℕ) : 0 ∉ decimal n := by
  intro h
  exact absurd (isdigit_of_mem_decimal h).1 (by decide)

lemma zero_notMem_hex02 (b : UInt8) : 0 ∉ hex02 b := by
  intro h
  have hmem : (0 : UInt8) ∈ hexText [b] := by simpa [hexText] using h
  exact (isHexDigit_of_mem_hexText hmem).2 rfl

lemma zero_notMem_takeWhile (s : Bytes) : 0 ∉ s.takeWhile (· ≠ 0) := by
  intro h
  simpa using List.mem_takeWhile_imp h

lemma LogEvent.zero_notMem_message (e : LogEvent) : 0 ∉ e.message := by
  have hinet : ∀ ip, 0 ∉ inetNtop ip := by
    intro ip
    simp only [inetNtop, List.mem_append, zero_notMem_decimal, false_or, or_false]
    decide
  cases e with
  | assigned id addr =>
    simp only [message, idText, List.mem_append, zero_notMem_decimal, zero_notMem_hex02, hinet,
      or_false]
    decide
  | heartbeat id =>
    simp only [message, idText, List.mem_append, zero_notMem_hex02, or_false]
    decide
  | job jobId id created =>
    simp only [message, idText, List.mem_append, zero_notMem_decimal, zero_notMem_hex02, or_false]
    cases created <;> decide
  | starting jobId id command =>
    simp only [message, List.mem_append, zero_notMem_decimal, zero_notMem_hex02,
      zero_notMem_takeWhile, or_false]
    decide
  | completed jobId id status =>
    simp only [message, List.mem_append, zero_notMem_decimal, zero_notMem_hex02, or_false]
    cases status <;> decide

lemma LogEvent.zero_notMem_text (e : LogEvent) (time : TimeText) : 0 ∉ e.text time := by
  have hcategory : ∀ c : LogCategory, 0 ∉ c.text ++ cstr " " := by
    intro c
    cases c <;> decide
  simp only [text, linePrefix, List.mem_append, not_or]
  exact ⟨⟨⟨by simpa using hcategory e.category, time.notMem⟩, by decide⟩, e.zero_notMem_message⟩

/-- The prefix always leaves room for the message. -/
lemma LogEvent.length_linePrefix_lt (e : LogEvent) (time : TimeText) :
    (e.linePrefix time).length < LOG_ENTRY_MAX := by
  have hcategory : ∀ c : LogCategory, (c.text).length ≤ 12 := by
    intro c
    cases c <;> decide
  have hlen := hcategory e.category
  have htime := time.length_lt
  have hspace : (cstr " ").length = 1 := by decide
  simp only [linePrefix, List.length_append, hspace]
  unfold LOG_ENTRY_MAX
  omega

/-- `log_append` appends the line, cut to the size of an entry. -/
lemma LogQueue.Represents.logAppend {q : LogQueue} {xs : List Bytes} (h : q.Represents xs)
    (stack : LogEntry) (e : LogEvent) (time : TimeText) :
    ∃ q', q.logAppend stack e time = some q' ∧
      q'.Represents (Ring.push LOG_QUEUE_SIZE xs (e.entry time)) := by
  have hlen := e.length_linePrefix_lt time
  have hempty : [] <+: stack.toList := List.nil_prefix
  obtain ⟨buf, hbuf, hprefix⟩ :=
    CBuffer.snprintf_eq hempty (by decide) (e.linePrefix time)
  have hheld : e.linePrefix time <+: buf.toList := by
    rw [List.nil_append, List.take_of_length_le (by omega)] at hprefix
    exact (List.prefix_append _ _).trans hprefix
  obtain ⟨buf', hbuf', hprefix'⟩ := CBuffer.snprintf_eq hheld hlen e.message
  have hstring : CBuffer.string buf' = e.entry time :=
    CBuffer.string_of_prefix hprefix' fun hzero =>
      e.zero_notMem_text time (List.mem_of_mem_take hzero)
  obtain ⟨q', hpush, hq'⟩ := h.push ⟨CBuffer.string buf', CBuffer.zero_notMem_string buf'⟩
  refine ⟨q', ?_, ?_⟩
  · rw [LogQueue.logAppend, logBuf, show (0 : ℕ) = ([] : Bytes).length from rfl, hbuf,
      Option.bind_some, hbuf', Option.bind_some, hpush]
  · rw [LogEvent.entry] at hstring ⊢
    simp only [hstring, List.take_take, min_self] at hq'
    exact hq'

end Text

/-! ### The calls -/

namespace PendingJob

def startLine (job : PendingJob) : LogEvent := .starting job.jobId job.clientId job.command

def endLine (job : PendingJob) (status : StatusCode) : LogEvent :=
  .completed job.jobId job.clientId status

end PendingJob

/-- The calls of `log_append` in a step. -/
def Server.logEvents (s : Server) (a : Action) : List LogEvent :=
  match a with
  | .client a =>
    match s.clientThread, a with
    | .receiving, .receive buffer n src _ newId =>
      match readRequest buffer n with
      | some (.clientId _)   => [.assigned newId src]
      | some (.heartbeat id) => if s.clients.any (·.clientId = id) then [.heartbeat id] else []
      | _                    => []
    | .jobReply req _ success, .reply true => [.job req.jobId req.clientId success]
    | _, _ => []
  | .processing a =>
    match s.processing, a with
    | .scanning _ i, .check =>
      match s.pendingJobs[i]? with
      | some job => if job.filesReceived ≥ job.fileCount then [job.startLine] else []
      | none     => []
    | .running _ i, .system ret =>
      (s.pendingJobs[i]?).toList.map fun job => job.endLine (if ret = 0 then .ok else .error)
    | _, _ => []
  | _ => []

/-- The lines of the processing thread among them. -/
def Server.processingLines (s : Server) (a : Action) : List LogEvent :=
  (s.logEvents a).filter fun e => e.category = .processing

/-- The commands that are run, with the result of `system`. -/
def Server.commandsRun (s : Server) (a : Action) : List (Bytes × ℤ) :=
  (s.jobEvents a).filterMap fun
    | .ran _ command ret => some (command, ret)
    | _                  => none

/-! ### The processing thread -/

/-- The log accounts for what was run and answered: each command is run and each JOB_RESULT is sent
between two lines for the same job. A job directory that cannot be entered leaves a start without an
end, and a failed allocation an end without a JOB_RESULT. -/
inductive Accounts : List LogEvent → List (Bytes × ℤ) → List (SockAddr × Reply) → Prop where
  | nil : Accounts [] [] []
  | started {lines : List LogEvent} {ran : List (Bytes × ℤ)} {sent : List (SockAddr × Reply)}
      (job : PendingJob) (h : Accounts lines ran sent) :
      Accounts (lines ++ [job.startLine]) ran sent
  | ended {lines : List LogEvent} {ran : List (Bytes × ℤ)} {sent : List (SockAddr × Reply)}
      (job : PendingJob) (ret : ℤ) (h : Accounts lines ran sent) :
      Accounts (lines ++ [job.startLine, job.endLine (exitStatus ret)])
        (ran ++ [(job.command, ret)]) sent
  | answered {lines : List LogEvent} {ran : List (Bytes × ℤ)} {sent : List (SockAddr × Reply)}
      (job : PendingJob) (ret : ℤ) (h : Accounts lines ran sent) :
      Accounts (lines ++ [job.startLine, job.endLine (exitStatus ret)])
        (ran ++ [(job.command, ret)])
        (sent ++ [(job.clientAddr, jobResult job (exitStatus ret))])

/-- The account where the processing thread is at `p`; the job at index `i` of the table has the
content that `content i` gives. -/
def AccountsAt (content : ℕ → Option (ClientId × SockAddr × UInt32 × Bytes × ℕ)) (p : Processing)
    (lines : List LogEvent) (ran : List (Bytes × ℤ)) (sent : List (SockAddr × Reply)) : Prop :=
  match p with
  | .entering _ i | .running _ i =>
    ∃ (job : PendingJob) (before : List LogEvent), content i = some job.content ∧
      lines = before ++ [job.startLine] ∧ Accounts before ran sent
  | .allocating _ i status | .sending _ i status =>
    ∃ (job : PendingJob) (before : List LogEvent) (ranBefore : List (Bytes × ℤ)) (ret : ℤ),
      content i = some job.content ∧ status = exitStatus ret ∧
      lines = before ++ [job.startLine, job.endLine status] ∧
      ran = ranBefore ++ [(job.command, ret)] ∧ Accounts before ranBefore sent
  | _ => Accounts lines ran sent

section Accounts

variable {s t : Server} {a : Action} {lines : List LogEvent} {ran : List (Bytes × ℤ)}
  {sent : List (SockAddr × Reply)}

/-- What `AccountsAt` reads of the table. -/
def Server.contentAt (s : Server) (i : ℕ) : Option (ClientId × SockAddr × UInt32 × Bytes × ℕ) :=
  (s.pendingJobs.map PendingJob.content)[i]?

lemma AccountsAt.accounts {content : ℕ → Option (ClientId × SockAddr × UInt32 × Bytes × ℕ)}
    {p : Processing} (h : AccountsAt content p lines ran sent) : Accounts lines ran sent := by
  cases p with
  | entering | running =>
    obtain ⟨job, before, -, rfl, hbefore⟩ := h
    exact .started job hbefore
  | allocating | sending =>
    obtain ⟨job, before, ranBefore, ret, -, rfl, rfl, rfl, hbefore⟩ := h
    exact .ended job ret hbefore
  | sleeping | locking | scanning | removing | returning => exact h

/-- The line that belongs to an event. -/
def Server.lineOf (s : Server) : JobEvent → List LogEvent
  | .ready _ job => [job.startLine]
  | .ran i _ ret => (s.pendingJobs[i]?).toList.map fun job => job.endLine (exitStatus ret)
  | _            => []

lemma processingLines_eq (s : Server) (a : Action) :
    s.processingLines a = (s.jobEvents a).flatMap s.lineOf := by
  have hquiet : ∀ a : ClientAction, s.processingLines (.client a) = [] := by
    intro a
    unfold Server.processingLines Server.logEvents
    dsimp only
    split
    · split
      · rfl
      · split_ifs <;> rfl
      · rfl
    · rfl
    · rfl
  cases a with
  | client a =>
    rw [hquiet]
    unfold Server.jobEvents
    split
    · split <;> rfl
    · rename_i heq
      cases heq
    · rfl
  | processing a =>
    cases hpc : s.processing <;> cases a <;>
      simp only [Server.processingLines, Server.logEvents, Server.jobEvents, hpc,
        List.filter_nil, List.flatMap_nil, List.flatMap_cons, List.append_nil, Server.lineOf]
    case scanning.check dir i =>
      cases s.pendingJobs[i]? with
      | none => rfl
      | some job =>
        dsimp only
        split_ifs <;> rfl
    case running.system dir i ret =>
      cases hjob : s.pendingJobs[i]? with
      | none => rfl
      | some job => simp [Server.lineOf, hjob, PendingJob.endLine, LogEvent.category, exitStatus]
    case sending.sendto dir i status => cases s.pendingJobs[i]? <;> rfl
  | _ => rfl

lemma contentAt_eq {i : ℕ} {job : PendingJob} (hjob : s.pendingJobs[i]? = some job) :
    s.contentAt i = some job.content := by
  rw [Server.contentAt, List.getElem?_map, hjob, Option.map_some]

/-- The lines of a job say nothing but its content. -/
lemma lines_congr {job c : PendingJob} (h : job.content = c.content) :
    job.startLine = c.startLine ∧ (∀ status, job.endLine status = c.endLine status) ∧
      job.command = c.command ∧ job.clientAddr = c.clientAddr := by
  cases job
  cases c
  simp_all [PendingJob.content, PendingJob.startLine, PendingJob.endLine]

lemma AccountsAt.step (h : AccountsAt s.contentAt s.processing lines ran sent)
    (hstep : s.step a = some t) :
    AccountsAt t.contentAt t.processing (lines ++ s.processingLines a)
      (ran ++ s.commandsRun a) (sent ++ s.resultsSent a) := by
  rw [processingLines_eq, Server.commandsRun, Server.resultsSent]
  cases JobRule.of_step hstep with
  | keep hevents hjobs hproc =>
    rw [hevents, hproc]
    have hcontent : t.contentAt = s.contentAt := by
      funext i
      rw [Server.contentAt, hjobs, Server.contentAt]
    simpa [hcontent] using h
  | create job hevents hjobs hidle hproc =>
    rw [hevents, hproc]
    have haccounts : Accounts lines ran sent := h.accounts
    cases hpc : s.processing <;> simp_all [Processing.idle, AccountsAt, Server.lineOf]
  | turn hevents hjobs hrem hidle =>
    have haccounts : Accounts lines ran sent := h.accounts
    have hat : AccountsAt t.contentAt t.processing lines ran sent := by
      cases hpc : t.processing <;> simp_all [Processing.idle, AccountsAt]
    rcases hevents with hevents | hevents <;> simpa [hevents, Server.lineOf] using hat
  | ready dir i job hevents hjobs hjob hready hpc hpc' =>
    have hcontent : t.contentAt i = some job.content := contentAt_eq (hjobs ▸ hjob)
    rw [hevents, hpc']
    refine ⟨job, lines, hcontent, ?_, ?_⟩
    · simp [Server.lineOf]
    · simpa using h.accounts
  | enter dir i hevents hjobs hpc hpc' =>
    have hcontent : t.contentAt = s.contentAt := by
      funext i
      rw [Server.contentAt, hjobs, Server.contentAt]
    rw [hpc] at h
    have hat : AccountsAt s.contentAt (.running dir i) lines ran sent := h
    simpa [hevents, hpc', hcontent] using hat
  | ran dir i ret hevents hjobs hpc hpc' =>
    rw [hpc] at h
    obtain ⟨c, before, hc, rfl, hbefore⟩ := h
    obtain ⟨job, hjob, hcontent⟩ : ∃ job, s.pendingJobs[i]? = some job ∧
        job.content = c.content := by
      simpa [Server.contentAt] using hc
    obtain ⟨-, hend, hcommand, -⟩ := lines_congr hcontent
    rw [hevents, hpc']
    refine ⟨c, before, ran, ret, ?_, rfl, ?_, ?_, by simpa [hjob] using hbefore⟩
    · rw [← hcontent]
      exact contentAt_eq (hjobs ▸ hjob)
    · simp [hjob, Server.lineOf, hend]
    · simp [hjob, hcommand]
  | allocate dir i status hevents hjobs hpc hpc' =>
    have hcontent : t.contentAt = s.contentAt := by
      funext i
      rw [Server.contentAt, hjobs, Server.contentAt]
    rw [hpc] at h
    have hat : AccountsAt s.contentAt (.sending dir i status) lines ran sent := h
    simpa [hevents, hpc', hcontent] using hat
  | sent dir i status job hevents hjobs hjob hpc hpc' =>
    rw [hpc] at h
    obtain ⟨c, before, ranBefore, ret, hc, rfl, rfl, rfl, hbefore⟩ := h
    have hcontent : job.content = c.content := by
      rw [contentAt_eq hjob] at hc
      exact Option.some.inj hc
    obtain ⟨-, -, -, haddr⟩ := lines_congr hcontent
    rw [hevents, hpc']
    have hanswered := Accounts.answered c ret hbefore
    simpa [AccountsAt, Server.lineOf, haddr, jobResult_congr hcontent] using hanswered
  | removed dir i hevents hjobs hpc hpc' =>
    rw [hpc] at h
    have haccounts : Accounts lines ran sent := h.accounts
    rw [hevents, hpc']
    simpa [AccountsAt, Server.lineOf] using haccounts

/-- In every run of the server, whatever the threads do between the steps of the processing thread,
its lines in the log account for the commands that were run and for the JOB_RESULTs that were sent:
they are pairs of a start and an end of the same job, with the status that was sent, and starts of
jobs whose directory could not be entered. -/
theorem log_accounts {dir : Bytes} {as : List Action}
    (h : run Server.step (.init dir) as = some s) :
    Accounts (trace Server.step Server.processingLines (.init dir) as)
      (trace Server.step Server.commandsRun (.init dir) as)
      (trace Server.step Server.resultsSent (.init dir) as) := by
  have hat := run_induction (P := fun as s => AccountsAt s.contentAt s.processing
    (trace Server.step Server.processingLines (.init dir) as)
    (trace Server.step Server.commandsRun (.init dir) as)
    (trace Server.step Server.resultsSent (.init dir) as)) ?_ ?_ h
  · exact hat.accounts
  · exact Accounts.nil
  · intro as a s t hrun hstep ih
    rw [trace_concat a hrun, trace_concat a hrun, trace_concat a hrun]
    exact ih.step hstep

end Accounts

/-- A job with a file, executed, answered and removed. -/
theorem log_accounts_processRun :
    Accounts (trace Server.step Server.processingLines (.init []) processRun)
      (trace Server.step Server.commandsRun (.init []) processRun)
      (trace Server.step Server.resultsSent (.init []) processRun) := by
  obtain ⟨s, hs⟩ := Option.isSome_iff_exists.mp
    (show (run Server.step (.init []) processRun).isSome = true by decide +kernel)
  exact log_accounts hs

end Pcd
