import PcdProject.Core.CBuffer
import PcdProject.Server.JobLedger

/-!
# The command of a job

From the bytes behind a `JobRequest` to the argument of `system`. A log notes what the datagrams
carried that were answered with `STATUS_OK`, and the number of their job in the ledger. The table
holds the part in front of the first zero, as far as it fits into the field of the command.
-/

namespace Pcd

open CLayout Transition

/-- The `cmd_len` bytes behind the struct of a JOB_REQ. -/
def carriedCommand (buffer : Bytes) : Bytes :=
  (buffer.drop (sizeof JobRequest.layout)).take (JobRequest.read buffer).cmdLen.toNat

/-- What `create_job` makes of the command bytes of a request. -/
def heldCommand (carried : Bytes) : Bytes := bounded MAX_CMD_LEN (carried.takeWhile (· ≠ 0))

/-! ### Events -/

/-- What `client_thread` does with JOB_REQs of sufficient length. -/
inductive CommandEvent where
  | received (carried : Bytes)
  | created
  | acked

/-- `acked` is a JOB_ACK with `STATUS_OK`. -/
def Server.commandEvents (s : Server) (a : Action) : List CommandEvent :=
  match s.clientThread, a with
  | .receiving, .client (.receive buffer n _ _ _) =>
    match readRequest buffer n with
    | some (.job _ _) => [.received (carriedCommand buffer)]
    | _               => []
  | .jobAppend _ _ _, .client (.append true _) => [.created]
  | .jobReply _ _ true, .client (.reply true)  => [.acked]
  | _, _ => []

/-- What the last JOB_REQ carried, the number of jobs created, and for each JOB_REQ that was answered
with `STATUS_OK` what it carried and the number of its job. -/
structure CommandLog where
  carried : Bytes
  created : ℕ
  acked : List (Bytes × ℕ)

namespace CommandLog

def next (c : CommandLog) : CommandEvent → CommandLog
  | .received carried => { c with carried := carried }
  | .created          => { c with created := c.created + 1 }
  | .acked            => { c with acked := c.acked ++ [(c.carried, c.created - 1)] }

def ofEvents (events : List CommandEvent) : CommandLog := events.foldl next ⟨[], 0, []⟩

/-- The log of a run of the server started in `dir`. -/
def ofRun (dir : Bytes) (as : List Action) : CommandLog :=
  ofEvents (trace Server.step Server.commandEvents (.init dir) as)

end CommandLog

/-- The numbers of the jobs whose commands were passed to `system`, with the command. -/
def Ledger.commands (l : Ledger) : List (ℕ × Bytes) :=
  l.notes.filterMap fun
    | .ran k command _ => some (k, command)
    | _                => none

/-- The command of the job with the given number, as it was created. -/
def Ledger.command (l : Ledger) (k : ℕ) : Option Bytes :=
  (l.created[k]?).map PendingJob.command

/-! ### Where the command is on its way -/

/-- The command of the request that `create_job` is called with. -/
def ClientThread.jobCommand : ClientThread → Option Bytes
  | .jobStat _ cmd _ | .jobMkdir _ cmd _ | .jobAppend _ cmd _ => some cmd
  | _ => none

/-- `create_job` has returned 1. -/
def ClientThread.jobCreated : ClientThread → Bool
  | .jobReply _ _ success => success
  | _ => false

/-- A step of `client_thread`, as far as commands go. -/
inductive CommandRule (s t : Server) : ClientAction → Prop where
  | receive (buffer : Bytes) (n : ℕ) (src : SockAddr) (now : ℤ) (newId : ClientId)
      (hpc : s.clientThread = .receiving)
      (ht : t = s.dispatch src now newId (readRequest buffer n)) :
      CommandRule s t (.receive buffer n src now newId)
  | goOn (a : ClientAction) (hevents : s.commandEvents (.client a) = [])
      (hquiet : s.jobEvents (.client a) = [])
      (hcommand : t.clientThread.jobCommand = none ∨
        t.clientThread.jobCommand = s.clientThread.jobCommand)
      (hcreated : t.clientThread.jobCreated = false) : CommandRule s t a
  | created (req : JobRequest) (cmd : Bytes) (src : SockAddr) (now : ℤ)
      (hpc : s.clientThread = .jobAppend req cmd src)
      (hpc' : t.clientThread = .jobReply req src true) : CommandRule s t (.append true now)
  | acked (req : JobRequest) (src : SockAddr) (hpc : s.clientThread = .jobReply req src true)
      (hpc' : t.clientThread = .receiving) : CommandRule s t (.reply true)

lemma CommandRule.of_clientStep {s t : Server} {a : ClientAction} (h : s.clientStep a = some t) :
    CommandRule s t a := by
  cases ClientBranch.of_clientStep h with
  | receive buffer n src now newId hpc hsize => exact .receive buffer n src now newId hpc rfl
  | append req cmd src now hpc hfree => exact .created req cmd src now hpc rfl
  | jobReply req src success hpc =>
    cases success with
    | true => exact .acked req src hpc rfl
    | false => exact .goOn _ (by simp only [Server.commandEvents, hpc]) rfl (.inl rfl) rfl
  | isDirectory _ _ _ _ hpc _ | missing _ _ _ hpc | mkdir _ _ _ hpc =>
    exact .goOn _ (by simp only [Server.commandEvents, hpc]) rfl (.inr (by rw [hpc]; rfl)) rfl
  | notDirectory _ _ _ _ hpc _ | mkdirFail _ _ _ hpc | appendFail _ _ _ _ hpc _
  | jobReplyFail _ _ _ hpc | enqueueUpload _ _ _ _ hpc | uploadReply _ _ _ _ hpc
  | downloadStat _ _ _ _ hpc | downloadMissing _ _ _ hpc | downloadChmod _ _ _ _ _ hpc
  | downloadReply _ _ _ _ _ hpc | enqueueDownload _ _ _ _ hpc =>
    exact .goOn _ (by simp only [Server.commandEvents, hpc]) rfl (.inl rfl) rfl

/-! ### What is read from the datagram -/

/-- The command of a request ends in front of the first zero of the bytes that are carried. -/
lemma command_of_readRequest {buffer cmd : Bytes} {n : ℕ} {req : JobRequest}
    (h : readRequest buffer n = some (.job req cmd)) :
    cmd = (carriedCommand buffer).takeWhile (· ≠ 0) := by
  cases RequestRule.of_readRequest h with
  | job htype cmd hcmd =>
    rw [trailingString_eq] at hcmd
    split at hcmd
    · cases hcmd
    · exact (Option.some.inj hcmd).symm

/-- The command is held as it was carried exactly if it is a string that fits into the field. -/
lemma heldCommand_eq_iff (carried : Bytes) :
    heldCommand carried = carried ↔ carried.length < MAX_CMD_LEN ∧ 0 ∉ carried := by
  constructor
  · intro h
    have hle : carried.length ≤ (carried.takeWhile (· ≠ 0)).length := by
      conv_lhs => rw [← h, heldCommand, bounded]
      exact List.length_take_le' _ _
    have hall : carried.takeWhile (· ≠ 0) = carried :=
      (List.takeWhile_prefix _).eq_of_length_le hle
    refine ⟨?_, CBuffer.takeWhile_eq_self_iff.mp hall⟩
    rw [heldCommand, hall, bounded, List.take_eq_self_iff] at h
    unfold MAX_CMD_LEN at h ⊢
    omega
  · rintro ⟨hlen, hmem⟩
    rw [heldCommand, CBuffer.takeWhile_eq_self_iff.mpr hmem, bounded, List.take_eq_self_iff]
    omega

/-! ### The invariant -/

/-- What was run is what the job was created with. -/
def Ledger.RanAsCreated (l : Ledger) : Prop := ∀ q ∈ l.commands, l.command q.1 = some q.2

/-- The log agrees with the ledger and with the location of `client_thread`. -/
structure CommandInv (s : Server) (l : Ledger) (c : CommandLog) : Prop where
  count   : c.created = l.created.length
  command : ∀ cmd, s.clientThread.jobCommand = some cmd → cmd = c.carried.takeWhile (· ≠ 0)
  created : s.clientThread.jobCreated = true →
    l.command (c.created - 1) = some (heldCommand c.carried)
  acked   : ∀ p ∈ c.acked, l.command p.2 = some (heldCommand p.1)

section Ledger

variable {s t : Server} {l l' : Ledger} {c : CommandLog} {a : Action}

lemma Ledger.command_of_prefix {k : ℕ} {command : Bytes} (h : l.command k = some command)
    (hcreated : l.created <+: l'.created) : l'.command k = some command := by
  obtain ⟨later, hlater⟩ := hcreated
  obtain ⟨job, hjob, hcommand⟩ := Option.map_eq_some_iff.mp h
  have hlt : k < l.created.length := (List.getElem?_eq_some_iff.mp hjob).1
  rw [Ledger.command, ← hlater, List.getElem?_append_left hlt, hjob]
  exact congrArg some hcommand

/-- A note that is no execution. -/
lemma Ledger.RanAsCreated.noted {i : ℕ} {f : ℕ → JobNote} (h : l.RanAsCreated)
    (hf : ∀ k k' command ret, f k ≠ .ran k' command ret) : (l.note i f).RanAsCreated := by
  have hcommands : (l.note i f).commands = l.commands := by
    cases hi : l.pending[i]? with
    | none => simp [note, commands, hi]
    | some k =>
      have hk : (match f k with
          | .ran k command _ => some (k, command)
          | _ => none) = (none : Option (ℕ × Bytes)) := by
        split
        · rename_i heq
          exact absurd heq (hf _ _ _ _)
        · rfl
      simp [note, commands, hi, hk]
  unfold RanAsCreated
  rw [hcommands]
  exact h

lemma Ledger.RanAsCreated.step (hl : LedgerInv s l) (h : l.RanAsCreated)
    (hstep : s.step a = some t) : ((s.jobEvents a).foldl Ledger.next l).RanAsCreated := by
  cases JobRule.of_step hstep with
  | keep hevents | enter dir i hevents | allocate dir i status hevents =>
    rw [hevents]
    exact h
  | create job hevents =>
    rw [hevents]
    intro q hq
    exact Ledger.command_of_prefix (h q hq) (List.prefix_append _ _)
  | turn hevents =>
    rcases hevents with hevents | hevents
    · rw [hevents]
      exact h
    · rw [hevents]
      intro q hq
      have hcommands : (l.next .passBegin).commands = l.commands := by
        simp [Ledger.next, Ledger.commands]
      exact h q (hcommands ▸ hq)
  | ready dir i job hevents =>
    rw [hevents]
    exact h.noted (by simp)
  | sent dir i status job hevents =>
    rw [hevents]
    exact h.noted (by simp)
  | removed dir i hevents =>
    rw [hevents]
    exact h.noted (f := .removed) (by simp)
  | ran dir i ret hevents =>
    rw [hevents]
    cases hjob : s.pendingJobs[i]? with
    | none => exact h
    | some job =>
      obtain ⟨k, c, hk, hc, hcontent⟩ := hl.lookup hjob
      have hcommand : job.command = c.command := congrArg (fun x => x.2.2.2.1) hcontent
      rw [Option.toList_some, List.map_cons, List.map_nil, List.foldl_cons, List.foldl_nil,
        Ledger.next, Ledger.note_eq _ hk]
      intro q hq
      rw [Ledger.commands, List.filterMap_append] at hq
      rcases List.mem_append.mp hq with hq | hq
      · exact h q hq
      · obtain rfl : q = (k, job.command) := by simpa using hq
        rw [Ledger.command, hc, hcommand]
        rfl

/-- Only `create_job` adds to the jobs of the ledger. -/
lemma created_foldl (ha : ∀ now, a ≠ .client (.append true now)) :
    ((s.jobEvents a).foldl Ledger.next l).created = l.created := by
  have hevents : ∀ job, .created job ∉ s.jobEvents a := by
    intro job
    unfold Server.jobEvents
    split
    · exact absurd rfl (ha _)
    · split
      · simp
      · split
        · split_ifs <;> simp
        · simp
      · simp
      · simp
      · simp
      · simp
    · simp
  generalize s.jobEvents a = events at hevents
  induction events generalizing l with
  | nil => rfl
  | cons e events ih =>
    rw [List.foldl_cons, ih fun job hjob => hevents job (List.mem_cons_of_mem _ hjob)]
    cases e with
    | created job => exact absurd List.mem_cons_self (hevents job)
    | passBegin | ready | ran | sent | removed => rfl

end Ledger

namespace CommandInv

variable {s t : Server} {l l' : Ledger} {c : CommandLog} {a : Action}

lemma init (dir : Bytes) : CommandInv (Server.init dir) (.ofEvents []) (.ofEvents []) where
  count := rfl
  command := by
    rintro cmd ⟨⟩
  created := by
    rintro ⟨⟩
  acked := by
    rintro p ⟨⟩

/-- A step of `client_thread` that neither reads a job request nor creates a job nor answers. -/
lemma goOn (h : CommandInv s l c) (hjobs : l'.created = l.created)
    (hcommand : t.clientThread.jobCommand = none ∨
      t.clientThread.jobCommand = s.clientThread.jobCommand)
    (hcreated : t.clientThread.jobCreated = true → s.clientThread.jobCreated = true) :
    CommandInv t l' c := by
  have hsame : ∀ k, l'.command k = l.command k := by
    intro k
    rw [Ledger.command, Ledger.command, hjobs]
  refine ⟨?_, ?_, ?_, ?_⟩
  · rw [hjobs]
    exact h.count
  · rcases hcommand with hnone | heq
    · rw [hnone]
      rintro cmd ⟨⟩
    · rw [heq]
      exact h.command
  · intro ht
    rw [hsame]
    exact h.created (hcreated ht)
  · intro p hp
    rw [hsame]
    exact h.acked p hp

lemma receive (h : CommandInv s l c) {buffer : Bytes} {n : ℕ} {src : SockAddr} {now : ℤ}
    {newId : ClientId} (hpc : s.clientThread = .receiving)
    (ht : t = s.dispatch src now newId (readRequest buffer n)) :
    CommandInv t l ((s.commandEvents (.client (.receive buffer n src now newId))).foldl
      CommandLog.next c) := by
  subst ht
  simp only [Server.commandEvents, hpc]
  cases hread : readRequest buffer n with
  | none => exact h.goOn rfl (.inr rfl) fun hcreated => hcreated
  | some req =>
    cases req with
    | job req cmd =>
      refine ⟨h.count, ?_, ?_, h.acked⟩
      · rintro _ ⟨⟩
        exact command_of_readRequest hread
      · rintro ⟨⟩
    | clientId messageId => exact h.goOn rfl (.inr rfl) fun hcreated => hcreated
    | heartbeat id => exact h.goOn rfl (.inr rfl) fun hcreated => hcreated
    | upload req name =>
      refine h.goOn rfl (.inl rfl) ?_
      rintro ⟨⟩
    | download req name =>
      refine h.goOn rfl (.inl rfl) ?_
      rintro ⟨⟩

lemma create (h : CommandInv s l c) {req : JobRequest} {cmd : Bytes} {src : SockAddr} {now : ℤ}
    (hpc : s.clientThread = .jobAppend req cmd src)
    (hpc' : t.clientThread = .jobReply req src true) :
    CommandInv t (l.next (.created (.create req cmd src now))) (c.next .created) := by
  have hcmd : cmd = c.carried.takeWhile (· ≠ 0) := h.command cmd (by rw [hpc]; rfl)
  have hnew : (l.next (.created (.create req cmd src now))).command l.created.length
      = some (heldCommand c.carried) := by
    simp [Ledger.next, Ledger.command, PendingJob.create, hcmd, heldCommand]
  refine ⟨?_, ?_, ?_, ?_⟩
  · simp [CommandLog.next, Ledger.next, h.count]
  · rw [hpc']
    rintro cmd ⟨⟩
  · intro _
    show Ledger.command _ (c.created + 1 - 1) = _
    rw [Nat.add_sub_cancel, h.count]
    exact hnew
  · intro p hp
    exact Ledger.command_of_prefix (h.acked p hp) (List.prefix_append _ _)

lemma ack (h : CommandInv s l c) {req : JobRequest} {src : SockAddr}
    (hpc : s.clientThread = .jobReply req src true) (hpc' : t.clientThread = .receiving) :
    CommandInv t l (c.next .acked) := by
  refine ⟨h.count, ?_, ?_, ?_⟩
  · rw [hpc']
    rintro cmd ⟨⟩
  · rw [hpc']
    rintro ⟨⟩
  · intro p hp
    rcases List.mem_append.mp hp with hp | hp
    · exact h.acked p hp
    · obtain rfl := List.mem_singleton.mp hp
      exact h.created (by rw [hpc]; rfl)

lemma step (h : CommandInv s l c) (hstep : s.step a = some t) :
    CommandInv t ((s.jobEvents a).foldl Ledger.next l)
      ((s.commandEvents a).foldl CommandLog.next c) := by
  have hother : (∀ b, a ≠ .client b) → t.clientThread = s.clientThread →
      CommandInv t ((s.jobEvents a).foldl Ledger.next l)
        ((s.commandEvents a).foldl CommandLog.next c) := by
    intro ha hthread
    have hevents : s.commandEvents a = [] := by
      unfold Server.commandEvents
      split
      · exact absurd rfl (ha _)
      · exact absurd rfl (ha _)
      · exact absurd rfl (ha _)
      · rfl
    rw [hevents]
    refine h.goOn (created_foldl fun now => ha _) (.inr (by rw [hthread])) ?_
    rw [hthread]
    exact fun hcreated => hcreated
  cases SystemRule.of_step hstep with
  | client a _ hclient =>
    cases CommandRule.of_clientStep hstep with
    | receive buffer n src now newId hpc ht => exact h.receive hpc ht
    | goOn _ hevents hquiet hcommand hcreated =>
      rw [hevents, hquiet]
      refine h.goOn rfl hcommand fun htrue => ?_
      exact absurd (hcreated.symm.trans htrue) Bool.false_ne_true
    | created req cmd src now hpc hpc' =>
      have hjob : s.jobEvents (.client (.append true now)) = [.created (.create req cmd src now)] := by
        simp only [Server.jobEvents, hpc]
      have hcommand : s.commandEvents (.client (.append true now)) = [.created] := by
        simp only [Server.commandEvents, hpc]
      rw [hjob, hcommand]
      exact h.create hpc hpc'
    | acked req src hpc hpc' =>
      have hcommand : s.commandEvents (.client (.reply true)) = [.acked] := by
        simp only [Server.commandEvents, hpc]
      rw [hcommand]
      exact h.ack hpc hpc'
  | worker w a _ hworker =>
    refine hother (by simp) ?_
    cases hworker <;> rfl
  | processing a _ hprocessing =>
    refine hother (by simp) ?_
    cases hprocessing <;> rfl
  | download a _ hdownload =>
    refine hother (by simp) ?_
    cases hdownload <;> rfl
  | sweep | kick | limit | limitIgnored | connectUpload | connectDownload =>
    exact hother (by simp) rfl

end CommandInv

lemma commandInv_of_run {dir : Bytes} {as : List Action} {s : Server}
    (h : run Server.step (.init dir) as = some s) :
    CommandInv s (.ofRun dir as) (.ofRun dir as) ∧ (Ledger.ofRun dir as).RanAsCreated := by
  refine run_induction (P := fun as s => CommandInv s (.ofRun dir as) (.ofRun dir as) ∧
    (Ledger.ofRun dir as).RanAsCreated) ⟨.init dir, by rintro q ⟨⟩⟩ ?_ h
  intro as a s t hrun ha ih
  obtain ⟨hcommand, hran⟩ := ih
  have hledger : Ledger.ofRun dir (as ++ [a])
      = (s.jobEvents a).foldl Ledger.next (.ofRun dir as) := by
    rw [Ledger.ofRun, trace_concat a hrun, Ledger.ofEvents, List.foldl_append]
    rfl
  have hlog : CommandLog.ofRun dir (as ++ [a])
      = (s.commandEvents a).foldl CommandLog.next (.ofRun dir as) := by
    rw [CommandLog.ofRun, trace_concat a hrun, CommandLog.ofEvents, List.foldl_append]
    rfl
  rw [hledger, hlog]
  exact ⟨hcommand.step ha, hran.step (LedgerInv.of_run hrun) ha⟩

/-! ### Main result -/

/-- What is executed for a JOB_REQ that was answered with `STATUS_OK` is what it carried, exactly if
this has less than `MAX_CMD_LEN` bytes, none of them zero. -/
theorem executed_eq_carried_iff {dir : Bytes} {as : List Action} {s : Server}
    (h : run Server.step (.init dir) as = some s) {carried command : Bytes} {k : ℕ}
    (hack : (carried, k) ∈ (CommandLog.ofRun dir as).acked)
    (hran : (k, command) ∈ (Ledger.ofRun dir as).commands) :
    command = carried ↔ carried.length < MAX_CMD_LEN ∧ 0 ∉ carried := by
  obtain ⟨hinv, hcreated⟩ := commandInv_of_run h
  have hheld : command = heldCommand carried :=
    Option.some.inj ((hcreated _ hran).symm.trans (hinv.acked _ hack))
  rw [hheld]
  exact heldCommand_eq_iff carried

/-- The job of `processRun`. -/
theorem executed_eq_carried_iff_processRun :
    (cstr "true", 0) ∈ (CommandLog.ofRun [] processRun).acked ∧
      (0, cstr "true") ∈ (Ledger.ofRun [] processRun).commands ∧
      (cstr "true" = cstr "true" ↔ (cstr "true").length < MAX_CMD_LEN ∧ 0 ∉ cstr "true") := by
  obtain ⟨s, hs⟩ := Option.isSome_iff_exists.mp
    (show (run Server.step (.init []) processRun).isSome = true by decide +kernel)
  have hack : (cstr "true", 0) ∈ (CommandLog.ofRun [] processRun).acked := by decide +kernel
  have hran : (0, cstr "true") ∈ (Ledger.ofRun [] processRun).commands := by decide +kernel
  exact ⟨hack, hran, executed_eq_carried_iff hs hack hran⟩

/-- The command `true` with a zero in its middle is executed as `tr`. -/
theorem not_executed_eq_carried_zero :
    ¬ ∀ dir as s, run Server.step (.init dir) as = some s → ∀ carried command k,
      (carried, k) ∈ (CommandLog.ofRun dir as).acked →
        (k, command) ∈ (Ledger.ofRun dir as).commands → command = carried := by
  intro h
  let req : JobRequest := ⟨1, Vector.replicate 16 1, 7, 0, 5⟩
  let as : List Action :=
    [.client (.receive (fillBuffer (req.datagram 0 [116, 114, 0, 117, 101]) 0) 37 ⟨1, 1⟩ 0
        (Vector.replicate 16 0)),
      .client (.stat none), .client (.mkdir true), .client (.append true 0),
      .client (.reply true), .processing (.getcwd true), .processing .lock, .processing .check,
      .processing (.chdir true), .processing (.system 0)]
  obtain ⟨s, hs⟩ := Option.isSome_iff_exists.mp
    (show (run Server.step (.init []) as).isSome = true by decide +kernel)
  have heq := h [] as s hs [116, 114, 0, 117, 101] [116, 114] 0 (by decide +kernel)
    (by decide +kernel)
  cases heq

end Pcd
