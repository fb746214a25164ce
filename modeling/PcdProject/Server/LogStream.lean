import PcdProject.Server.AdminConsole

/-!
# The log lines of a session

The lines that `admin_thread` passes to `send` are those that the threads of the server log, in the
same order. The queue in between may overflow, and only then are lines lost in front of `send`. What
`send` does not take of a line is lost behind it.
-/

namespace Pcd

open Transition

/-- If the event is the `send` of a line, the line is taken as a whole. -/
def ConsoleEvent.Whole : ConsoleEvent → Prop
  | .line text result => result = some text.length
  | _                 => True

namespace Console

variable {s t : Console} {a : ConsoleAction} {as : List ConsoleAction}

/-! ### Lines that are logged and lines that are passed to `send` -/

/-- The line that is in `logline` and was not passed to `send` yet. -/
def inHand (s : Console) : List Bytes :=
  match s.phase with
  | .sending _ => [CBuffer.string s.logline]
  | _          => []

/-- The lines that are passed to `send`. -/
def offered (es : List ConsoleEvent) : List Bytes :=
  es.filterMap fun
    | .line text _ => some text
    | _            => none

/-- What `send` takes of these lines. -/
def taken (es : List ConsoleEvent) : List Bytes :=
  es.filterMap fun
    | .line text result => some (text.take (result.getD 0))
    | _                 => none

lemma forall₂_taken_offered (es : List ConsoleEvent) :
    List.Forall₂ (· <+: ·) (taken es) (offered es) := by
  induction es with
  | nil => exact .nil
  | cons e es ih =>
    cases e with
    | line text result => exact .cons (List.take_prefix _ _) ih
    | refused | opened | reply | closed => exact ih

lemma taken_eq_offered {es : List ConsoleEvent} (h : ∀ e ∈ es, e.Whole) :
    taken es = offered es := by
  induction es with
  | nil => rfl
  | cons e es ih =>
    have hrest := ih fun e he => h e (List.mem_cons_of_mem _ he)
    cases e with
    | line text result =>
      obtain rfl : result = some text.length := h _ List.mem_cons_self
      change text.take text.length :: taken es = text :: offered es
      rw [List.take_length, hrest]
    | refused | opened | reply | closed => exact hrest

/-- The step pushes no more entries than there are free cells in the queue. -/
def HasRoom (s : Console) (a : ConsoleAction) : Prop :=
  s.logs.count + (s.pushed a).length ≤ LOG_QUEUE_SIZE

instance (s : Console) (a : ConsoleAction) : Decidable (s.HasRoom a) :=
  inferInstanceAs (Decidable (_ ≤ _))

section Lines

variable {stack : LogEntry} {time : TimeText} {logs logs' : LogQueue} {xs : List Bytes}
  {gapless : Prop} {pushed sent : List Bytes}

lemma represents_appendLines (hq : logs.Represents xs) (es : List LogEvent) :
    ∃ logs' past rest, appendLines stack time logs es = some logs' ∧ logs'.Represents rest ∧
      xs ++ es.map (fun e => e.entry time) = past ++ rest ∧
      (xs.length + es.length ≤ LOG_QUEUE_SIZE → past = []) := by
  induction es generalizing logs xs with
  | nil => exact ⟨logs, [], xs, rfl, hq, by simp, fun _ => rfl⟩
  | cons e es ih =>
    obtain ⟨logs₁, hpush, hlogs₁⟩ := hq.logAppend stack e time
    obtain ⟨lost, hlost, hnone⟩ := Ring.push_eq LOG_QUEUE_SIZE xs
      (e.entry time)
    obtain ⟨logs₂, past, rest, happend, hlogs₂, hsplit, hroom⟩ := ih hlogs₁
    refine ⟨logs₂, lost ++ past, rest, ?_, hlogs₂, ?_, ?_⟩
    · rw [appendLines, hpush, Option.bind_some, happend]
    · rw [List.map_cons, List.append_cons, hlost, List.append_assoc, hsplit, List.append_assoc]
    · intro hle
      rw [List.length_cons] at hle
      obtain rfl := hnone (by omega)
      have hlen := congrArg List.length hlost
      rw [List.nil_append, List.length_append, List.length_singleton] at hlen
      exact List.append_eq_nil_iff.mpr ⟨rfl, hroom (by omega)⟩

/-- `logline` takes an entry and the newline behind it. -/
lemma exists_logline (logline : Vector UInt8 LOGLINE_SIZE) {line : LogEntry}
    (hzero : 0 ∈ line.toList) :
    ∃ logline', CBuffer.strcat (CBuffer.writeAt logline 0 line.toList) (cstr "\n") = some logline' ∧
      CBuffer.string logline' = CBuffer.string line ++ cstr "\n" := by
  have hsize : line.toList.length = LOG_ENTRY_MAX := Vector.length_toList
  have hmax : LOG_ENTRY_MAX + 1 < LOGLINE_SIZE := by decide
  have hstring : CBuffer.string (CBuffer.writeAt logline 0 line.toList) = CBuffer.string line :=
    CBuffer.string_writeAt (by omega) hzero
  have hlen : (CBuffer.string line).length ≤ line.toList.length :=
    (List.takeWhile_sublist _).length_le
  have hnewline : (cstr "\n").length = 1 := by decide
  rw [← hstring]
  apply CBuffer.strcat_eq (by decide)
  rw [hstring, hnewline]
  omega

/-- A popped entry has its terminator. -/
lemma exists_popTimed {x : Bytes} (hq : logs.Represents (x :: xs)) (buffer : LogEntry)
    (ret : WaitResult) :
    ∃ logs' line, logs.popTimed buffer 0 ret = some (logs', some (.entry line)) ∧
      CBuffer.string line = x ∧ 0 ∈ line.toList ∧ logs'.Represents xs := by
  obtain ⟨logs', line, hpop, hline, hlogs'⟩ := hq.popTimed_cons buffer 0 ret
  have hlen : x.length < LOG_ENTRY_MAX := hq.length_lt x List.mem_cons_self
  refine ⟨logs', line, hpop, hline, ?_, hlogs'⟩
  by_contra hzero
  have hwhole : CBuffer.string line = line.toList := CBuffer.takeWhile_eq_self_iff.mpr hzero
  rw [← hline, hwhole, Vector.length_toList] at hlen
  exact absurd hlen (lt_irrefl _)

/-- What was logged, the lines that were passed to `send` and those that wait: the oldest entries may
be lost, and none is lost in `gapless` runs. -/
def Streamed (gapless : Prop) (s : Console) (pushed sent : List Bytes) : Prop :=
  ∃ past rest, pushed = past ++ rest ∧ s.logs.Represents rest ∧
    (sent ++ s.inHand).Sublist (past.map (· ++ cstr "\n")) ∧
    (gapless → sent ++ s.inHand = past.map (· ++ cstr "\n"))

lemma Streamed.mono {gapless' : Prop} (hs : Streamed gapless s pushed sent)
    (h : gapless' → gapless) : Streamed gapless' s pushed sent := by
  obtain ⟨past, rest, hpushed, hrest, hsub, hall⟩ := hs
  exact ⟨past, rest, hpushed, hrest, hsub, fun hgapless => hall (h hgapless)⟩

/-- A step that leaves the log alone, and the line in hand or passes it to `send`. -/
lemma Streamed.keep (hs : Streamed gapless s pushed sent) (hlogs : t.logs = s.logs)
    {new : List Bytes} (hhand : new ++ t.inHand = s.inHand) :
    Streamed gapless t (pushed ++ []) (sent ++ new) := by
  obtain ⟨past, rest, hpushed, hrest, hsub, hall⟩ := hs
  rw [← hhand, ← List.append_assoc] at hsub hall
  exact ⟨past, rest, by rw [hpushed, List.append_nil], hlogs ▸ hrest, hsub, hall⟩

/-- Lines that are pushed may push out the oldest ones. -/
lemma Streamed.append (hs : Streamed gapless s pushed sent) {es : List LogEvent}
    (hlogs : appendLines stack time s.logs es = some logs') (ht : t.logs = logs')
    (hhand : t.inHand = s.inHand) :
    Streamed (gapless ∧ s.logs.count + es.length ≤ LOG_QUEUE_SIZE) t
      (pushed ++ es.map fun e => e.entry time) (sent ++ []) := by
  obtain ⟨past, rest, rfl, hrest, hsub, hall⟩ := hs
  obtain ⟨logs, lost, rest', happend, hrest', hsplit, hroom⟩ := represents_appendLines hrest es
  obtain rfl : logs = logs' := Option.some.inj (happend.symm.trans hlogs)
  have hcount := hrest.count_eq
  rw [List.append_nil, Streamed, hhand]
  refine ⟨past ++ lost, rest', ?_, ht ▸ hrest', ?_, ?_⟩
  · rw [List.append_assoc, hsplit, List.append_assoc]
  · rw [List.map_append]
    exact hsub.trans (List.sublist_append_left _ _)
  · rintro ⟨hgapless, hle⟩
    rw [hroom (by omega), List.append_nil]
    exact hall hgapless

/-- The oldest line is taken into the hand. -/
lemma Streamed.pop (hs : Streamed gapless s pushed sent) {buffer line : LogEntry}
    {ret : WaitResult} {logline : Vector UInt8 LOGLINE_SIZE}
    (hpop : s.logs.popTimed buffer 0 ret = some (logs', some (.entry line)))
    (hcat : CBuffer.strcat (CBuffer.writeAt s.logline 0 line.toList) (cstr "\n") = some logline)
    (hhand : s.inHand = []) (ht : t.logs = logs') (hhand' : t.inHand = [CBuffer.string logline]) :
    Streamed gapless t (pushed ++ []) (sent ++ []) := by
  obtain ⟨past, rest, rfl, hrest, hsub, hall⟩ := hs
  cases rest with
  | nil =>
    obtain ⟨result, hnone, hresult⟩ := hrest.popTimed_nil buffer 0 ret
    rw [hpop] at hnone
    cases hnone
    exact absurd rfl (hresult line)
  | cons x rest =>
    obtain ⟨logs, line', hline, hstring, hzero, hlogs⟩ := exists_popTimed hrest buffer ret
    rw [hpop] at hline
    cases hline
    obtain ⟨logline', hcat', hlogline⟩ := exists_logline s.logline hzero
    obtain rfl : logline' = logline := Option.some.inj (hcat'.symm.trans hcat)
    rw [hhand, List.append_nil] at hsub hall
    refine ⟨past ++ [x], rest, by simp, ht ▸ hlogs, ?_, ?_⟩
    · rw [hhand', hlogline, hstring, List.append_nil, List.map_append]
      exact hsub.append_right _
    · intro hgapless
      rw [hhand', hlogline, hstring, List.append_nil, hall hgapless, List.map_append]
      rfl

/-- Without a line there was none. -/
lemma Streamed.logs_eq (hs : Streamed gapless s pushed sent) {buffer : LogEntry}
    {ret : WaitResult} {result : Option PopResult}
    (hpop : s.logs.popTimed buffer 0 ret = some (logs', result))
    (hresult : ∀ line, result ≠ some (.entry line)) : logs' = s.logs := by
  obtain ⟨past, rest, -, hrest, -, -⟩ := hs
  cases rest with
  | nil =>
    obtain ⟨result', hnone, -⟩ := hrest.popTimed_nil buffer 0 ret
    rw [hpop] at hnone
    cases hnone
    rfl
  | cons x rest =>
    obtain ⟨logs, line, hline, -⟩ := exists_popTimed hrest buffer ret
    rw [hpop] at hline
    cases hline
    exact absurd rfl (hresult line)

lemma Streamed.step (hs : Streamed gapless s pushed sent) (h : s.step a = some t) :
    Streamed (gapless ∧ s.HasRoom a) t (pushed ++ s.pushed a) (sent ++ offered (s.events a)) := by
  have hrule := ConsoleRule.of_step h
  generalize s.events a = new at hrule
  cases hrule with
  | server a stack time server logs hstep hadmin hlogs =>
    have hroom : s.HasRoom (.server a stack time) ↔
        s.logs.count + (s.server.logEvents a).length ≤ LOG_QUEUE_SIZE := by
      simp [HasRoom, Console.pushed]
    rw [hroom]
    exact hs.append hlogs rfl rfl
  | popLine readable ret buffer line logs logline hpc hpop hcat =>
    refine (hs.pop hpop hcat ?_ rfl rfl).mono And.left
    simp [inHand, hpc]
  | popWoken readable ret buffer logs hpc hpop =>
    refine (hs.keep ?_ ?_).mono And.left
    · exact hs.logs_eq hpop (by simp)
    · simp [offered, inHand, hpc]
  | popEnd readable ret buffer logs result hpc hpop hresult =>
    refine (hs.keep ?_ ?_).mono And.left
    · refine hs.logs_eq hpop ?_
      rintro line ⟨⟩
      cases hresult
    · cases readable <;> simp [offered, inHand, hpc, afterLogs]
  | acceptFail | refuse => exact (hs.keep rfl rfl).mono And.left
  | opened behind got now hpc | turn now got timeoutMs hpc | inactive now got hpc
  | pollFail timeoutMs hpc | pollShowing timeoutMs readable hpc | hangup env got now hpc
  | command recvBuf env got now effect hpc | exit recvBuf env got now effect hpc =>
    refine (hs.keep ?_ ?_).mono And.left
    · rfl
    · simp [offered, inHand, hpc, disconnect]
  | poll timeoutMs readable hpc =>
    refine (hs.keep ?_ ?_).mono And.left
    · rfl
    · cases readable <;> simp [offered, inHand, hpc, afterLogs]
  | sendFail readable result now hpc | send readable n now hpc =>
    refine (hs.keep ?_ ?_).mono And.left
    · rfl
    · simp [offered, inHand, hpc, disconnect]

end Lines

/-! ### The server under its console -/

/-- The steps that the server makes in a step of the whole. -/
def serverActions : ConsoleAction → List Action
  | .server a _ _ => [a]
  | .recv (some recvBuf) env _ _ =>
    match handleAdminCommand (recvBuf.takeWhile (· ≠ 0)) with
    | some (some command) => command.serverActions env
    | _                   => []
  | _ => []

/-- What is logged in a step, with the times. -/
def logged (s : Console) : ConsoleAction → List (LogEvent × TimeText)
  | .server a _ time => (s.server.logEvents a).map fun e => (e, time)
  | _                => []

lemma pushed_eq (s : Console) (a : ConsoleAction) :
    s.pushed a = (s.logged a).map fun p => p.1.entry p.2 := by
  cases a with
  | server => simp [pushed, logged]
  | accept | turn | poll | pop | send | recv => rfl

/-- The commands of the administrator log nothing. -/
lemma trace_serverActions (env : AdminEnv) (command : AdminCommand) (server : Server) :
    trace Server.step Server.logEvents server (command.serverActions env) = [] := by
  have hone : ∀ a, server.logEvents a = [] → trace Server.step Server.logEvents server [a] = [] := by
    intro a ha
    cases hstep : server.step a <;> simp [trace, ha, hstep]
  cases command with
  | kickClient arg =>
    cases arg with
    | none => rfl
    | some arg => exact hone _ rfl
  | setMaxUploads arg =>
    cases arg with
    | none => rfl
    | some arg => exact hone _ rfl
  | help | showLogs | stopLogs | showClients | showQueue | exit | unknown => rfl

lemma run_of_effect {env : AdminEnv} {server : Server} {showLogs : ℤ} {recvBuf got : Bytes}
    {now : Timespec} {effect : AdminEffect}
    (h : executeAdminCommand env server showLogs (recvBuf.takeWhile (· ≠ 0)) = some effect) :
    run Server.step server (serverActions (.recv (some recvBuf) env got now))
        = some effect.server ∧
      trace Server.step Server.logEvents server (serverActions (.recv (some recvBuf) env got now))
        = [] := by
  unfold executeAdminCommand at h
  unfold serverActions
  split at h
  · cases h
  · rename_i hnothing
    cases h
    simp only [hnothing]
    exact ⟨rfl, rfl⟩
  · rename_i command hcommand
    simp only [hcommand]
    refine ⟨?_, trace_serverActions env command server⟩
    simp only [AdminCommand.execute, Option.bind_eq_bind, Option.bind_eq_some_iff] at h
    obtain ⟨reply, -, t, ht, heq⟩ := h
    cases heq
    exact ht

/-- A step of the whole is a run of the server, which logs the same. -/
lemma run_server_of_step (h : s.step a = some t) :
    run Server.step s.server (serverActions a) = some t.server ∧
      trace Server.step Server.logEvents s.server (serverActions a) = (s.logged a).map Prod.fst := by
  have hrule := ConsoleRule.of_step h
  generalize s.events a = new at hrule
  cases hrule with
  | server a stack time server logs hstep hadmin hlogs =>
    refine ⟨?_, ?_⟩
    · rw [serverActions, run_cons, hstep]
      rfl
    · simp only [serverActions, trace, hstep, logged, List.map_map]
      exact (List.append_nil _).trans (List.map_id _).symm
  | command recvBuf env got now effect hpc heffect | exit recvBuf env got now effect hpc heffect =>
    exact run_of_effect heffect
  | poll timeoutMs readable | popEnd readable => exact ⟨rfl, rfl⟩
  | acceptFail | refuse | opened | turn | inactive | pollFail | pollShowing | popWoken | popLine
  | sendFail | send | hangup => exact ⟨rfl, rfl⟩

lemma run_server {dir : Bytes} {q : LogQueue} {last : Timespec}
    {stack : Vector UInt8 LOGLINE_SIZE} (h : run step (.init dir q last stack) as = some s) :
    let acts := trace step (fun _ a => serverActions a) (.init dir q last stack) as
    run Server.step (.init dir) acts = some s.server ∧
      trace Server.step Server.logEvents (.init dir) acts
        = (trace step logged (.init dir q last stack) as).map Prod.fst := by
  refine run_induction (P := fun as s =>
    run Server.step (.init dir) (trace step (fun _ a => serverActions a) (.init dir q last stack) as)
        = some s.server ∧
      trace Server.step Server.logEvents (.init dir)
          (trace step (fun _ a => serverActions a) (.init dir q last stack) as)
        = (trace step logged (.init dir q last stack) as).map Prod.fst) ⟨rfl, rfl⟩ ?_ h
  rintro as a s t hrun ha ⟨ihrun, ihtrace⟩
  obtain ⟨hserver, hlogged⟩ := run_server_of_step ha
  rw [trace_concat a hrun, trace_concat a hrun]
  refine ⟨?_, ?_⟩
  · rw [run_append, ihrun]
    exact hserver
  · rw [trace_append _ ihrun, ihtrace, hlogged, List.map_append]

lemma streamed_of_run {dir : Bytes} {q : LogQueue} {last : Timespec}
    {stack : Vector UInt8 LOGLINE_SIZE} (h : run step (.init dir q last stack) as = some s) :
    Streamed (Along step HasRoom (.init dir q last stack) as) s
      (trace step pushed (.init dir q last stack) as)
      (offered (trace step events (.init dir q last stack) as)) := by
  refine run_induction (P := fun as s =>
    Streamed (Along step HasRoom (.init dir q last stack) as) s
      (trace step pushed (.init dir q last stack) as)
      (offered (trace step events (.init dir q last stack) as))) ?_ ?_ h
  · exact ⟨[], [], rfl, LogQueue.represents_init q, List.Sublist.refl _, fun _ => rfl⟩
  · intro as a s t hrun ha ih
    rw [trace_concat a hrun, trace_concat a hrun, along_concat_of_run hrun, offered,
      List.filterMap_append]
    exact ih.step ha

/-- `log_queue_pop_timed` and `strcat` stay in their arrays. -/
lemma isSome_pop {rest : List Bytes} (hrest : s.logs.Represents rest) {readable : Bool}
    (hpc : s.phase = .popping readable) (ret : WaitResult) : (s.step (.pop ret)).isSome := by
  cases rest with
  | nil =>
    obtain ⟨result, hpop, hresult⟩ := hrest.popTimed_nil s.entryBuffer 0 ret
    rcases result with _ | ⟨line⟩ | _ | _
    · simp [step, hpc, hpop]
    · exact absurd rfl (hresult line)
    · simp [step, hpc, hpop]
    · simp [step, hpc, hpop]
  | cons x rest =>
    obtain ⟨logs, line, hpop, -, hzero, -⟩ := exists_popTimed hrest s.entryBuffer ret
    obtain ⟨logline, hcat, -⟩ := exists_logline s.logline hzero
    simp [step, hpc, hpop, hcat]

/-! ### Main result -/

/-- In every run of the server with its console, the lines that are passed to `send` (with the one
that `admin_thread` has taken out of the queue), over all sessions, are lines that the steps of the
server log, up to 511 bytes of each, each once and in their order, and of each `send` takes a first
part. If none is logged into a full queue, these are all lines but those that wait, and if each
`send` takes its line as a whole, nothing of them is lost. No line is written past `logline`. -/
theorem log_stream {dir : Bytes} {q : LogQueue} {last : Timespec}
    {stack : Vector UInt8 LOGLINE_SIZE} (h : run step (.init dir q last stack) as = some s) :
    let acts := trace step (fun _ a => serverActions a) (.init dir q last stack) as
    let es := trace step events (.init dir q last stack) as
    run Server.step (.init dir) acts = some s.server ∧
      ∃ (times : List TimeText) (past rest : List Bytes),
        ((trace Server.step Server.logEvents (.init dir) acts).zipWith LogEvent.entry times)
          = past ++ rest ∧
        times.length = (trace Server.step Server.logEvents (.init dir) acts).length ∧
        rest.length ≤ LOG_QUEUE_SIZE ∧
        (offered es ++ s.inHand).Sublist (past.map (· ++ cstr "\n")) ∧
        List.Forall₂ (· <+: ·) (taken es) (offered es) ∧
        (Along step HasRoom (.init dir q last stack) as →
          offered es ++ s.inHand = past.map (· ++ cstr "\n") ∧
            ((∀ e ∈ es, e.Whole) → taken es ++ s.inHand = past.map (· ++ cstr "\n"))) ∧
        ∀ readable ret, s.phase = .popping readable → (s.step (.pop ret)).isSome := by
  obtain ⟨hserver, hlogged⟩ := run_server h
  obtain ⟨past, rest, hpushed, hrest, hsub, hall⟩ := streamed_of_run h
  have hentries : trace step pushed (.init dir q last stack) as
      = (trace step logged (.init dir q last stack) as).map fun p => p.1.entry p.2 := by
    rw [map_trace]
    congr 1
    funext s a
    exact pushed_eq s a
  refine ⟨hserver, (trace step logged (.init dir q last stack) as).map Prod.snd, past, rest, ?_,
    ?_, hrest.length_le, hsub, forall₂_taken_offered _, ?_, ?_⟩
  · rw [hlogged, List.zipWith_map, List.zipWith_self, ← hentries, hpushed]
  · rw [hlogged, List.length_map, List.length_map]
  · refine fun hroom => ⟨hall hroom, fun hwhole => ?_⟩
    rw [taken_eq_offered hwhole]
    exact hall hroom
  · intro readable ret hpc
    exact isSome_pop hrest hpc ret

/-- The line of a registration waits while the logs are asked for. -/
theorem log_stream_showLogsRun :
    let acts := trace step (fun _ a => serverActions a) idle showLogsRun
    let es := trace step events idle showLogsRun
    ∃ (s : Console) (times : List TimeText) (past rest : List Bytes),
      run step idle showLogsRun = some s ∧ s.logs.count = 1 ∧
      ((trace Server.step Server.logEvents (.init []) acts).zipWith LogEvent.entry times)
        = past ++ rest ∧
      offered es ++ s.inHand = past.map (· ++ cstr "\n") := by
  obtain ⟨s, hs, hcount⟩ := Option.map_eq_some_iff.mp
    (show (run step idle showLogsRun).map (·.logs.count) = some 1 by decide +kernel)
  obtain ⟨-, times, past, rest, hentries, -, -, -, -, hall, -⟩ := log_stream hs
  have hroom : Along step HasRoom idle showLogsRun := by decide +kernel
  exact ⟨s, times, past, rest, hs, hcount, hentries, (hall hroom).1⟩

end Console

end Pcd
