import PcdProject.Server.LogAppend

/-!
# The sessions of the administrator

`admin_thread` with the threads that log: it accepts a connection, waits for input with `poll`,
sends the log lines that wait if the session shows the logs, executes what it receives and ends a
session that is inactive. It serves one session after the other, and in each the lines come in the
order in which they were logged.
-/

namespace Pcd

open Transition

/-! ### The clock of a session -/

/-- `struct timespec` -/
structure Timespec where
  sec : ℤ
  nsec : ℤ
  nsec_nonneg : 0 ≤ nsec
  nsec_lt : nsec < 1000000000
  deriving DecidableEq

/-- In nanoseconds. -/
def Timespec.ns (t : Timespec) : ℤ := t.sec * 1000000000 + t.nsec

def INACTIVITY_TIMEOUT_MS : ℤ := 60000

/-- `elapsed_ms`, a sum of type `long` that is converted to `int`. -/
def elapsedMs (now last : Timespec) : ℤ :=
  ((now.sec - last.sec) * 1000 + (now.nsec - last.nsec).tdiv 1000000).bmod 4294967296

/-- The time between is not negative, and its milliseconds are in the range of `int`. -/
def Timespec.Follows (now last : Timespec) : Prop :=
  last.ns ≤ now.ns ∧ now.ns - last.ns < 2147483647 * 1000000

/-- `elapsed_ms` is less than a millisecond off. -/
lemma elapsedMs_near {now last : Timespec} (h : now.Follows last) :
    elapsedMs now last * 1000000 < now.ns - last.ns + 1000000 ∧
      now.ns - last.ns < elapsedMs now last * 1000000 + 1000000 := by
  obtain ⟨hle, hlt⟩ := h
  have hnow := And.intro now.nsec_nonneg now.nsec_lt
  have hlast := And.intro last.nsec_nonneg last.nsec_lt
  simp only [Timespec.ns] at hle hlt ⊢
  have hdiv := Int.mul_tdiv_add_tmod (now.nsec - last.nsec) 1000000
  have hlow : -1000000 < (now.nsec - last.nsec).tmod 1000000 := Int.lt_tmod_of_pos _ (by decide)
  have hhigh : (now.nsec - last.nsec).tmod 1000000 < 1000000 := Int.tmod_lt_of_pos _ (by decide)
  have hwrap : elapsedMs now last
      = (now.sec - last.sec) * 1000 + (now.nsec - last.nsec).tdiv 1000000 := by
    rw [elapsedMs]
    exact Int.bmod_eq_of_le (by omega) (by omega)
  rw [hwrap]
  omega

/-! ### The thread -/

/-- `sizeof(logline)` -/
def LOGLINE_SIZE : ℕ := 4096

/-- Where `admin_thread` is: at `accept`, at the start of a turn of a session's loop, at `poll`, at
`log_queue_pop_timed` or the `send` of its line, at `recv`. -/
inductive AdminPhase where
  | accepting
  | turning
  | polling (timeoutMs : ℤ)
  | popping (readable : Bool)
  | sending (readable : Bool)
  | receiving
  deriving DecidableEq

/-- The server with its log and the local variables of `admin_thread`. -/
structure Console where
  server : Server
  logs : LogQueue
  phase : AdminPhase
  clientConnected : Bool
  showLogs : ℤ
  lastActivity : Timespec
  logline : Vector UInt8 LOGLINE_SIZE

/-- A step of another thread, with the stack of `log_append` and the time that it writes, or one of
`admin_thread`, with what the system decides in it; `got` is what a socket takes of a reply. -/
inductive ConsoleAction where
  | server (a : Action) (stack : LogEntry) (time : TimeText)
  | accept (ok : Bool) (behind : Vector UInt8 6) (got : Bytes) (now : Timespec)
  | turn (now : Timespec) (got : Bytes)
  | poll (readable : Option Bool)
  | pop (ret : WaitResult)
  | send (result : Option ℕ) (now : Timespec)
  | recv (input : Option Bytes) (env : AdminEnv) (got : Bytes) (now : Timespec)

/-- The calls that only the administrator's commands make. -/
def Action.byAdmin : Action → Bool
  | .setMaxUploads _ | .kick _ => true
  | _ => false

/-- 70 bytes from the start of the text: it has 63 and a terminator, behind which other memory is
read. -/
def welcome (behind : Vector UInt8 6) : Bytes :=
  cstr "Welcome to Admin Console.\nType HELP to see available commands.\n" ++ [0] ++ behind.toList

def refusal : Bytes := cstr "Only one admin client allowed at a time. Try again later.\n"

def inactiveText : Bytes := cstr "Disconnected due to inactivity.\n"

namespace Console

def init (dir : Bytes) (q : LogQueue) (lastActivity : Timespec)
    (stack : Vector UInt8 LOGLINE_SIZE) : Console where
  server := .init dir
  logs := q.init
  phase := .accepting
  clientConnected := false
  showLogs := 0
  lastActivity := lastActivity
  logline := stack

/-- `disconnect` -/
def disconnect (s : Console) : Console := { s with phase := .accepting, clientConnected := false }

/-- Behind the logs, the session is read if there is something to read. -/
def afterLogs (s : Console) (readable : Bool) : Console :=
  { s with phase := if readable then .receiving else .turning }

/-- The calls of `log_append` in a step of the server. -/
def appendLines (stack : LogEntry) (time : TimeText) (q : LogQueue) :
    List LogEvent → Option LogQueue
  | []      => some q
  | e :: es => (q.logAppend stack e time).bind fun q => appendLines stack time q es

/-- `timeout_ms` of a session that does not show the logs. -/
def timeoutMs (s : Console) (now : Timespec) : ℤ :=
  INACTIVITY_TIMEOUT_MS - elapsedMs now s.lastActivity

/-- The bytes of `logline` that `log_queue_pop_timed` writes. -/
def entryBuffer (s : Console) : LogEntry := Vector.ofFn fun i => s.logline.toList.getD i 0

/-- `none` if the thread is not at this call, the call cannot have this result, or memory is
accessed outside of an array. -/
def step (s : Console) (a : ConsoleAction) : Option Console :=
  match s.phase, a with
  | _, .server a stack time =>
    if a.byAdmin then none
    else
      (s.server.step a).bind fun server =>
        (appendLines stack time s.logs (s.server.logEvents a)).map fun logs =>
          { s with server := server, logs := logs }
  | .accepting, .accept false _ _ _ => some s
  | .accepting, .accept true behind got now =>
    if s.clientConnected then
      if got.isSublist refusal then some s else none
    else if got.isSublist (welcome behind) then
      some { s with
        phase := .turning, clientConnected := true, showLogs := 0, lastActivity := now }
    else none
  | .turning, .turn now got =>
    if s.showLogs ≠ 0 then some { s with phase := .polling 1000 }
    else if s.timeoutMs now ≤ 0 then
      if got.isSublist inactiveText then some s.disconnect else none
    else some { s with phase := .polling (s.timeoutMs now) }
  | .polling _, .poll none            => some s.disconnect
  | .polling _, .poll (some readable) =>
    if s.showLogs ≠ 0 then some { s with phase := .popping readable }
    else some (s.afterLogs readable)
  | .popping readable, .pop ret =>
    match s.logs.popTimed s.entryBuffer 0 ret with
    | none                            => none
    | some (logs, none)               => some { s with logs := logs }
    | some (logs, some (.entry line)) =>
      (CBuffer.strcat (CBuffer.writeAt s.logline 0 line.toList) (cstr "\n")).map fun logline =>
        { s with logs := logs, logline := logline, phase := .sending readable }
    | some (logs, some _)             => some ({ s with logs := logs }.afterLogs readable)
  | .sending readable, .send result now =>
    match result with
    | none | some 0 => some s.disconnect
    | some n        =>
      if n ≤ (CBuffer.string s.logline).length then
        some { s with lastActivity := now, phase := .popping readable }
      else none
  | .receiving, .recv none _ _ _ => some s.disconnect
  | .receiving, .recv (some recvBuf) env got now =>
    if recvBuf ≠ [] ∧ recvBuf.length < 4096 then
      (executeAdminCommand env s.server s.showLogs (recvBuf.takeWhile (· ≠ 0))).bind fun effect =>
        if got.isSublist effect.reply then
          let s := { s with server := effect.server, showLogs := effect.showLogs }
          if effect.showLogs = -1 then some s.disconnect
          else some { s with lastActivity := now, phase := .turning }
        else none
    else none
  | _, _ => none

end Console

/-! ### What a session does -/

/-- `line` is a `send` of a log line with its result, `reply` what the socket takes of any other
text. -/
inductive ConsoleEvent where
  | refused
  | opened
  | line (text : Bytes) (result : Option ℕ)
  | reply (got : Bytes)
  | closed
  deriving DecidableEq

namespace Console

def events (s : Console) (a : ConsoleAction) : List ConsoleEvent :=
  match s.phase, a with
  | .accepting, .accept true _ got _ =>
    if s.clientConnected then [.refused] else [.opened, .reply got]
  | .turning, .turn now got =>
    if s.showLogs = 0 ∧ s.timeoutMs now ≤ 0 then [.reply got, .closed] else []
  | .polling _, .poll none => [.closed]
  | .sending _, .send result _ =>
    .line (CBuffer.string s.logline) result :: if result.getD 0 = 0 then [.closed] else []
  | .receiving, .recv none _ _ _ => [.closed]
  | .receiving, .recv (some recvBuf) env got _ =>
    match executeAdminCommand env s.server s.showLogs (recvBuf.takeWhile (· ≠ 0)) with
    | some effect => .reply got :: if effect.showLogs = -1 then [.closed] else []
    | none        => []
  | _, _ => []

/-- The entries that a step pushes, as they are stored. -/
def pushed (s : Console) : ConsoleAction → List Bytes
  | .server a _ time => (s.server.logEvents a).map fun e => e.entry time
  | _                => []

end Console

/-! ### What a step changes -/

inductive ConsoleRule (s : Console) : ConsoleAction → Console → List ConsoleEvent → Prop where
  | server (a : Action) (stack : LogEntry) (time : TimeText) (server : Server) (logs : LogQueue)
      (hstep : s.server.step a = some server) (hadmin : a.byAdmin = false)
      (hlogs : Console.appendLines stack time s.logs (s.server.logEvents a) = some logs) :
      ConsoleRule s (.server a stack time) { s with server := server, logs := logs } []
  | acceptFail (behind : Vector UInt8 6) (got : Bytes) (now : Timespec)
      (hpc : s.phase = .accepting) : ConsoleRule s (.accept false behind got now) s []
  | refuse (behind : Vector UInt8 6) (got : Bytes) (now : Timespec) (hpc : s.phase = .accepting)
      (hconn : s.clientConnected = true) :
      ConsoleRule s (.accept true behind got now) s [.refused]
  | opened (behind : Vector UInt8 6) (got : Bytes) (now : Timespec) (hpc : s.phase = .accepting)
      (hconn : s.clientConnected = false) :
      ConsoleRule s (.accept true behind got now)
        { s with phase := .turning, clientConnected := true, showLogs := 0, lastActivity := now }
        [.opened, .reply got]
  | turn (now : Timespec) (got : Bytes) (timeoutMs : ℤ) (hpc : s.phase = .turning)
      (htimeout : s.showLogs ≠ 0 ∧ timeoutMs = 1000 ∨
        s.showLogs = 0 ∧ timeoutMs = s.timeoutMs now ∧ 0 < timeoutMs) :
      ConsoleRule s (.turn now got) { s with phase := .polling timeoutMs } []
  | inactive (now : Timespec) (got : Bytes) (hpc : s.phase = .turning) (hshow : s.showLogs = 0)
      (htimeout : s.timeoutMs now ≤ 0) :
      ConsoleRule s (.turn now got) s.disconnect [.reply got, .closed]
  | pollFail (timeoutMs : ℤ) (hpc : s.phase = .polling timeoutMs) :
      ConsoleRule s (.poll none) s.disconnect [.closed]
  | pollShowing (timeoutMs : ℤ) (readable : Bool) (hpc : s.phase = .polling timeoutMs)
      (hshow : s.showLogs ≠ 0) :
      ConsoleRule s (.poll (some readable)) { s with phase := .popping readable } []
  | poll (timeoutMs : ℤ) (readable : Bool) (hpc : s.phase = .polling timeoutMs)
      (hshow : s.showLogs = 0) : ConsoleRule s (.poll (some readable)) (s.afterLogs readable) []
  | popWoken (readable : Bool) (ret : WaitResult) (buffer : LogEntry) (logs : LogQueue)
      (hpc : s.phase = .popping readable) (hpop : s.logs.popTimed buffer 0 ret = some (logs, none)) :
      ConsoleRule s (.pop ret) { s with logs := logs } []
  | popLine (readable : Bool) (ret : WaitResult) (buffer line : LogEntry) (logs : LogQueue)
      (logline : Vector UInt8 LOGLINE_SIZE) (hpc : s.phase = .popping readable)
      (hpop : s.logs.popTimed buffer 0 ret = some (logs, some (.entry line)))
      (hcat : CBuffer.strcat (CBuffer.writeAt s.logline 0 line.toList) (cstr "\n")
        = some logline) :
      ConsoleRule s (.pop ret)
        { s with logs := logs, logline := logline, phase := .sending readable } []
  | popEnd (readable : Bool) (ret : WaitResult) (buffer : LogEntry) (logs : LogQueue)
      (result : PopResult) (hpc : s.phase = .popping readable)
      (hpop : s.logs.popTimed buffer 0 ret = some (logs, some result))
      (hresult : result.string = []) :
      ConsoleRule s (.pop ret) ({ s with logs := logs }.afterLogs readable) []
  | sendFail (readable : Bool) (result : Option ℕ) (now : Timespec)
      (hpc : s.phase = .sending readable) (hzero : result.getD 0 = 0) :
      ConsoleRule s (.send result now) s.disconnect
        [.line (CBuffer.string s.logline) result, .closed]
  | send (readable : Bool) (n : ℕ) (now : Timespec) (hpc : s.phase = .sending readable)
      (hpos : n ≠ 0) :
      ConsoleRule s (.send (some n) now) { s with lastActivity := now, phase := .popping readable }
        [.line (CBuffer.string s.logline) (some n)]
  | hangup (env : AdminEnv) (got : Bytes) (now : Timespec) (hpc : s.phase = .receiving) :
      ConsoleRule s (.recv none env got now) s.disconnect [.closed]
  | command (recvBuf : Bytes) (env : AdminEnv) (got : Bytes) (now : Timespec)
      (effect : AdminEffect) (hpc : s.phase = .receiving)
      (heffect : executeAdminCommand env s.server s.showLogs (recvBuf.takeWhile (· ≠ 0))
        = some effect) (hgoes : effect.showLogs ≠ -1) :
      ConsoleRule s (.recv (some recvBuf) env got now)
        { s with
          server := effect.server, showLogs := effect.showLogs, lastActivity := now
          phase := .turning }
        [.reply got]
  | exit (recvBuf : Bytes) (env : AdminEnv) (got : Bytes) (now : Timespec) (effect : AdminEffect)
      (hpc : s.phase = .receiving)
      (heffect : executeAdminCommand env s.server s.showLogs (recvBuf.takeWhile (· ≠ 0))
        = some effect) (hexit : effect.showLogs = -1) :
      ConsoleRule s (.recv (some recvBuf) env got now)
        { s with server := effect.server, showLogs := effect.showLogs }.disconnect
        [.reply got, .closed]

lemma ConsoleRule.of_step {s t : Console} {a : ConsoleAction} (h : s.step a = some t) :
    ConsoleRule s a t (s.events a) := by
  unfold Console.step at h
  split at h
  · rename_i a stack time
    split_ifs at h with hadmin
    obtain ⟨server, hstep, h⟩ := Option.bind_eq_some_iff.mp h
    obtain ⟨logs, hlogs, rfl⟩ := Option.map_eq_some_iff.mp h
    have hquiet : s.events (.server a stack time) = [] := by
      cases hpc : s.phase <;> simp only [Console.events, hpc]
    rw [hquiet]
    exact .server a stack time server logs hstep (by simpa using hadmin) hlogs
  · rename_i behind got now hpc
    cases h
    simpa [Console.events, hpc] using ConsoleRule.acceptFail behind got now hpc
  · rename_i behind got now hpc
    split_ifs at h with hconn hgot hgot <;> cases h
    · simpa [Console.events, hpc, hconn] using ConsoleRule.refuse behind got now hpc hconn
    · have hconn : s.clientConnected = false := by simpa using hconn
      simpa [Console.events, hpc, hconn] using ConsoleRule.opened behind got now hpc hconn
  · rename_i now got hpc
    split_ifs at h with hshow htimeout hgot <;> cases h
    · have hquiet : s.events (.turn now got) = [] := by simp [Console.events, hpc, hshow]
      rw [hquiet]
      exact .turn now got 1000 hpc (.inl ⟨hshow, rfl⟩)
    · have hshow : s.showLogs = 0 := by simpa using hshow
      simpa [Console.events, hpc, hshow, htimeout] using
        ConsoleRule.inactive now got hpc hshow htimeout
    · have hshow : s.showLogs = 0 := by simpa using hshow
      have hquiet : s.events (.turn now got) = [] := by simp [Console.events, hpc, htimeout]
      rw [hquiet]
      exact .turn now got _ hpc (.inr ⟨hshow, rfl, by omega⟩)
  · rename_i timeoutMs hpc
    cases h
    simpa [Console.events, hpc] using ConsoleRule.pollFail timeoutMs hpc
  · rename_i timeoutMs readable hpc
    have hquiet : s.events (.poll (some readable)) = [] := by simp [Console.events, hpc]
    rw [hquiet]
    split_ifs at h with hshow <;> cases h
    · exact .pollShowing timeoutMs readable hpc hshow
    · exact .poll timeoutMs readable hpc (by simpa using hshow)
  · rename_i readable ret hpc
    have hquiet : s.events (.pop ret) = [] := by simp [Console.events, hpc]
    rw [hquiet]
    split at h
    · cases h
    · rename_i logs hpop
      cases h
      exact .popWoken readable ret _ logs hpc hpop
    · rename_i logs line hpop
      obtain ⟨logline, hcat, rfl⟩ := Option.map_eq_some_iff.mp h
      exact .popLine readable ret _ line logs logline hpc hpop hcat
    · rename_i logs result hresult hpop
      cases h
      refine .popEnd readable ret _ logs result hpc hpop ?_
      cases result with
      | entry line => exact absurd rfl (hresult line)
      | timeout => rfl
      | error => rfl
  · rename_i readable result now hpc
    split at h
    · cases h
      simpa [Console.events, hpc] using ConsoleRule.sendFail readable none now hpc rfl
    · cases h
      simpa [Console.events, hpc] using ConsoleRule.sendFail readable (some 0) now hpc rfl
    · rename_i n hpos
      split_ifs at h with hle
      cases h
      have hne : n ≠ 0 := fun hzero => hpos hzero
      simpa [Console.events, hpc, hne] using ConsoleRule.send readable n now hpc hne
  · rename_i env got now hpc
    cases h
    simpa [Console.events, hpc] using ConsoleRule.hangup env got now hpc
  · rename_i recvBuf env got now hpc
    split_ifs at h with hsize
    obtain ⟨effect, heffect, h⟩ := Option.bind_eq_some_iff.mp h
    dsimp only at h
    split_ifs at h with hgot hexit <;> cases h
    · have hevents : s.events (.recv (some recvBuf) env got now) = [.reply got, .closed] := by
        simp only [Console.events, hpc, heffect, if_pos hexit]
      rw [hevents]
      exact .exit recvBuf env got now effect hpc heffect hexit
    · have hevents : s.events (.recv (some recvBuf) env got now) = [.reply got] := by
        simp only [Console.events, hpc, heffect, if_neg hexit]
      rw [hevents]
      exact .command recvBuf env got now effect hpc heffect hexit
  · cases h

/-! ### One session after the other -/

namespace Console

variable {s t : Console} {a : ConsoleAction} {as : List ConsoleAction} {es : List ConsoleEvent}

/-- `client_connected` says whether `admin_thread` is in a session, and as many sessions are open as
it says. -/
structure SessionInv (s : Console) (es : List ConsoleEvent) : Prop where
  connected : s.clientConnected = decide (s.phase ≠ .accepting)
  opens     : es.count .opened = es.count .closed + s.clientConnected.toNat
  refused   : .refused ∉ es

namespace SessionInv

variable {new : List ConsoleEvent}

/-- A step within a session, or outside of one. -/
lemma keep (hs : SessionInv s es) (hpc : t.phase = .accepting ↔ s.phase = .accepting)
    (hconn : t.clientConnected = s.clientConnected) (hnew : new.count .opened = new.count .closed)
    (hrefused : .refused ∉ new) : SessionInv t (es ++ new) where
  connected := by rw [hconn, hs.connected, decide_eq_decide, not_iff_not, hpc]
  opens     := by
    rw [List.count_append, List.count_append, hnew, hconn, hs.opens]
    omega
  refused   := by simp [hs.refused, hrefused]

/-- A step that ends a session. -/
lemma close (hs : SessionInv s es) (hpc : s.phase ≠ .accepting)
    (hnew : new.count .closed = new.count .opened + 1) (hrefused : .refused ∉ new) (t : Console) :
    SessionInv t.disconnect (es ++ new) where
  connected := rfl
  opens     := by
    have hconn : s.clientConnected = true := by simpa [hpc] using hs.connected
    rw [List.count_append, List.count_append, hnew, hs.opens, hconn]
    simp only [disconnect, Bool.toNat_true, Bool.toNat_false]
    omega
  refused   := by simp [hs.refused, hrefused]

lemma step (hs : SessionInv s es) (h : s.step a = some t) : SessionInv t (es ++ s.events a) := by
  have hrule := ConsoleRule.of_step h
  generalize s.events a = new at hrule
  cases hrule with
  | server | acceptFail => exact hs.keep Iff.rfl rfl rfl (by simp)
  | refuse behind got now hpc hconn =>
    -- the flag is cleared at the end of every session
    have hfree := hs.connected
    rw [hconn, hpc] at hfree
    cases hfree
  | opened behind got now hpc hconn =>
    refine ⟨rfl, ?_, by simp [hs.refused]⟩
    have hopens := hs.opens
    rw [hconn] at hopens
    simp [hopens]
  | turn now got timeoutMs hpc | pollShowing timeoutMs readable hpc
  | popWoken readable ret buffer logs hpc | popLine readable ret buffer line logs logline hpc =>
    exact hs.keep (by simp [hpc]) rfl rfl (by simp)
  | poll timeoutMs readable hpc | popEnd readable ret buffer logs result hpc =>
    refine hs.keep ?_ rfl rfl (by simp)
    cases readable <;> simp [hpc, afterLogs]
  | send readable n now hpc => exact hs.keep (by simp [hpc]) rfl (by simp) (by simp)
  | command recvBuf env got now effect hpc =>
    exact hs.keep (by simp [hpc]) rfl (by simp) (by simp)
  | inactive now got hpc | pollFail timeoutMs hpc | sendFail readable result now hpc
  | hangup env got now hpc | exit recvBuf env got now effect hpc =>
    exact hs.close (by simp [hpc]) (by simp) (by simp) _

lemma of_run {dir : Bytes} {q : LogQueue} {last : Timespec} {stack : Vector UInt8 LOGLINE_SIZE}
    (h : run Console.step (.init dir q last stack) as = some s) :
    SessionInv s (trace Console.step Console.events (.init dir q last stack) as) := by
  refine run_induction (P := fun as s => SessionInv s
    (trace Console.step Console.events (.init dir q last stack) as)) ?_ ?_ h
  · exact ⟨rfl, rfl, List.not_mem_nil⟩
  · intro as a s t hrun ha ih
    rw [trace_concat a hrun]
    exact ih.step ha

end SessionInv

/-- `admin_thread` serves one session after the other: in every run as many sessions have ended as
were opened, but for the one that it is in, and no connection is refused on account of another
session. -/
theorem one_session {dir : Bytes} {q : LogQueue} {last : Timespec}
    {stack : Vector UInt8 LOGLINE_SIZE} (h : run step (.init dir q last stack) as = some s) :
    let events := trace step events (.init dir q last stack) as
    events.count .opened = events.count .closed + (if s.phase = .accepting then 0 else 1) ∧
      .refused ∉ events := by
  have hinv := SessionInv.of_run h
  refine ⟨?_, hinv.refused⟩
  rw [hinv.opens, hinv.connected]
  split_ifs with hpc <;> simp [hpc]

/-! ### Inactive sessions -/

/-- The times at which a session is opened, receives a command or is sent a log line. -/
def activities (s : Console) (a : ConsoleAction) : List Timespec :=
  match s.phase, a with
  | .accepting, .accept true _ _ now => if s.clientConnected then [] else [now]
  | .sending _, .send (some n) now => if n = 0 then [] else [now]
  | .receiving, .recv (some recvBuf) env _ now =>
    match executeAdminCommand env s.server s.showLogs (recvBuf.takeWhile (· ≠ 0)) with
    | some effect => if effect.showLogs = -1 then [] else [now]
    | none        => []
  | _, _ => []

/-- The monotonic clock does not go back, and a session that does not show the logs comes to its
next turn within the range of `int`. -/
def ClockForward (s : Console) : ConsoleAction → Prop
  | .accept _ _ _ now | .send _ now | .recv _ _ _ now => s.lastActivity.ns ≤ now.ns
  | .turn now _ => s.showLogs = 0 → now.Follows s.lastActivity
  | _           => True

/-- `last_activity` is the last one of the activities. -/
structure ActivityInv (s : Console) (times : List Timespec) : Prop where
  latest : ∀ time ∈ times, time.ns ≤ s.lastActivity.ns
  mem    : s.phase ≠ .accepting → s.lastActivity ∈ times

namespace ActivityInv

variable {times : List Timespec} {now : Timespec}

lemma keep (hs : ActivityInv s times) (hlast : t.lastActivity = s.lastActivity)
    (hpc : t.phase ≠ .accepting → s.phase ≠ .accepting) : ActivityInv t (times ++ []) := by
  rw [List.append_nil]
  refine ⟨?_, fun h => ?_⟩
  · rw [hlast]
    exact hs.latest
  · rw [hlast]
    exact hs.mem (hpc h)

lemma renew (hs : ActivityInv s times) (hnow : s.lastActivity.ns ≤ now.ns)
    (hlast : t.lastActivity = now) : ActivityInv t (times ++ [now]) := by
  constructor
  · intro time htime
    rw [hlast]
    rcases List.mem_append.mp htime with hold | hnew
    · exact (hs.latest time hold).trans hnow
    · rw [List.mem_singleton.mp hnew]
  · intro _
    rw [hlast]
    exact List.mem_append_right _ (List.mem_singleton_self now)

lemma step (hs : ActivityInv s times) (hclock : s.ClockForward a) (h : s.step a = some t) :
    ActivityInv t (times ++ s.activities a) := by
  have hrule := ConsoleRule.of_step h
  generalize s.events a = new at hrule
  cases hrule with
  | server a stack time server logs =>
    have hquiet : s.activities (.server a stack time) = [] := by
      cases hpc : s.phase <;> simp only [activities, hpc]
    rw [hquiet]
    exact hs.keep rfl id
  | acceptFail behind got now hpc =>
    simpa [activities, hpc] using hs.keep (t := s) rfl id
  | refuse behind got now hpc hconn =>
    simpa [activities, hpc, hconn] using hs.keep (t := s) rfl id
  | opened behind got now hpc hconn =>
    simpa [activities, hpc, hconn] using hs.renew hclock rfl
  | turn now got timeoutMs hpc | pollShowing timeoutMs readable hpc
  | popWoken readable ret buffer logs hpc | popLine readable ret buffer line logs logline hpc
  | poll timeoutMs readable hpc | popEnd readable ret buffer logs result hpc =>
    simp only [activities, hpc]
    exact hs.keep rfl fun _ => by simp [hpc]
  | inactive now got hpc | pollFail timeoutMs hpc | hangup env got now hpc =>
    simp only [activities, hpc]
    exact hs.keep rfl fun hpc' => absurd rfl hpc'
  | sendFail readable result now hpc hzero =>
    have hquiet : s.activities (.send result now) = [] := by
      cases result with
      | none => simp only [activities, hpc]
      | some n =>
        simp only [activities, hpc]
        exact if_pos hzero
    rw [hquiet]
    exact hs.keep rfl fun hpc' => absurd rfl hpc'
  | send readable n now hpc hpos =>
    simp only [activities, hpc, if_neg hpos]
    exact hs.renew hclock rfl
  | command recvBuf env got now effect hpc heffect hgoes =>
    simp only [activities, hpc, heffect, if_neg hgoes]
    exact hs.renew hclock rfl
  | exit recvBuf env got now effect hpc heffect hexit =>
    simp only [activities, hpc, heffect, if_pos hexit]
    exact hs.keep rfl fun hpc' => absurd rfl hpc'

lemma of_run {dir : Bytes} {q : LogQueue} {last : Timespec} {stack : Vector UInt8 LOGLINE_SIZE}
    (hclock : Along Console.step ClockForward (.init dir q last stack) as)
    (h : run Console.step (.init dir q last stack) as = some s) :
    ActivityInv s (trace Console.step activities (.init dir q last stack) as) := by
  refine along_trace_invariant (I := ActivityInv) ⟨by simp, fun h => absurd rfl h⟩ ?_ hclock h
  intro s a t times hs hC ha
  exact hs.step hC ha

end ActivityInv

/-- The next turn of a session without logs ends it or waits in `poll`. -/
lemma exists_turn {now : Timespec} {got : Bytes} (h : s.step (.turn now got) = some t) :
    s.phase = .turning ∧
      ((s.showLogs ≠ 0 ∧ t.phase = .polling 1000) ∨
        (s.showLogs = 0 ∧ s.timeoutMs now ≤ 0 ∧ t.phase = .accepting) ∨
        (s.showLogs = 0 ∧ 0 < s.timeoutMs now ∧ t.phase = .polling (s.timeoutMs now))) := by
  have hrule := ConsoleRule.of_step h
  generalize s.events (.turn now got) = new at hrule
  cases hrule with
  | turn now got timeoutMs hpc htimeout =>
    refine ⟨hpc, ?_⟩
    rcases htimeout with ⟨hshow, rfl⟩ | ⟨hshow, rfl, hpos⟩
    · exact .inl ⟨hshow, rfl⟩
    · exact .inr (.inr ⟨hshow, hpos, rfl⟩)
  | inactive now got hpc hshow htimeout => exact ⟨hpc, .inr (.inl ⟨hshow, htimeout, rfl⟩)⟩

/-- In every run whose clock does not go back, each turn of a session ends it only if it does not
show the logs and nothing has happened for more than 59.999 seconds, and does end it then if nothing
has happened for a minute; otherwise it waits in `poll` for at most a minute. -/
theorem inactivity {dir : Bytes} {q : LogQueue} {last now : Timespec}
    {stack : Vector UInt8 LOGLINE_SIZE} {got : Bytes}
    (h : run step (.init dir q last stack) as = some s)
    (hclock : Along step ClockForward (.init dir q last stack) as)
    (hnow : s.ClockForward (.turn now got)) (hturn : s.step (.turn now got) = some t) :
    let times := trace step activities (.init dir q last stack) as
    (t.phase = .accepting →
        s.showLogs = 0 ∧ ∀ time ∈ times, 59999 * 1000000 < now.ns - time.ns) ∧
      (s.showLogs = 0 → (∀ time ∈ times, 60000 * 1000000 ≤ now.ns - time.ns) →
        t.phase = .accepting) ∧
      (t.phase ≠ .accepting → ∃ timeoutMs, t.phase = .polling timeoutMs ∧
        0 < timeoutMs ∧ timeoutMs ≤ INACTIVITY_TIMEOUT_MS) := by
  have hinv := ActivityInv.of_run hclock h
  obtain ⟨hpc, hcases⟩ := exists_turn hturn
  have hlast := hinv.mem (by simp [hpc])
  have hminute : INACTIVITY_TIMEOUT_MS = 60000 := rfl
  rcases hcases with ⟨hshow, hpc'⟩ | ⟨hshow, hexpired, hpc'⟩ | ⟨hshow, hleft, hpc'⟩
  · rw [hpc']
    refine ⟨by simp, fun hno => absurd hno hshow, fun _ => ⟨1000, rfl, by decide, by decide⟩⟩
  · obtain ⟨hnear, -⟩ := elapsedMs_near (hnow hshow)
    refine ⟨fun _ => ⟨hshow, ?_⟩, fun _ _ => hpc', fun hno => absurd hpc' hno⟩
    intro time htime
    have hle := hinv.latest time htime
    unfold timeoutMs at hexpired
    omega
  · obtain ⟨hnear, hnear'⟩ := elapsedMs_near (hnow hshow)
    have hpos : s.lastActivity.ns ≤ now.ns := (hnow hshow).1
    rw [hpc']
    refine ⟨by simp, ?_, fun _ => ⟨_, rfl, hleft, ?_⟩⟩
    · intro _ hall
      have hlate := hall _ hlast
      unfold timeoutMs at hleft
      omega
    · unfold timeoutMs
      omega

def idleQueue : LogQueue := ⟨Vector.replicate _ (Vector.replicate _ 0), 0, 0, 0⟩

/-- The console before the first session. -/
def idle : Console :=
  .init [] idleQueue ⟨0, 0, by decide, by decide⟩ (Vector.replicate _ 0)

/-- A session that is silent for a minute. -/
theorem inactivity_minute :
    let times := trace step activities idle
      [.accept true (Vector.replicate _ 0) [] ⟨5, 0, by decide, by decide⟩]
    ∃ s t : Console, (t.phase = .accepting →
        s.showLogs = 0 ∧ ∀ time ∈ times, 59999 * 1000000 < 65 * 1000000000 - time.ns) ∧
      (s.showLogs = 0 → (∀ time ∈ times, 60000 * 1000000 ≤ 65 * 1000000000 - time.ns) →
        t.phase = .accepting) ∧
      (t.phase ≠ .accepting → ∃ timeoutMs, t.phase = .polling timeoutMs ∧
        0 < timeoutMs ∧ timeoutMs ≤ INACTIVITY_TIMEOUT_MS) := by
  let accepted : ConsoleAction :=
    .accept true (Vector.replicate _ 0) [] ⟨5, 0, by decide, by decide⟩
  have hclock : Along step ClockForward idle [accepted] := by
    refine along_cons.mpr ⟨?_, fun t _ => along_nil⟩
    change (0 : ℤ) * 1000000000 + 0 ≤ 5 * 1000000000 + 0
    decide
  have hnow : ClockForward
      { idle with
        phase := .turning, clientConnected := true, showLogs := 0
        lastActivity := ⟨5, 0, by decide, by decide⟩ }
      (.turn ⟨65, 0, by decide, by decide⟩ []) := fun _ => ⟨by decide, by decide⟩
  have hrun : run step idle [accepted] = some _ := rfl
  exact ⟨_, _, inactivity hrun hclock hnow rfl⟩

/-- A client is registered while a session asks for the logs. -/
def showLogsRun : List ConsoleAction :=
  let clientIdReq := fillBuffer [MessageType.clientIdReq.code] 0
  [.accept true (Vector.replicate _ 0) [] ⟨5, 0, by decide, by decide⟩,
    .server (.client (.receive clientIdReq 8 ⟨0, 0⟩ 0 (Vector.replicate _ 7)))
      (Vector.replicate _ 0) ⟨cstr "[2024-05-01 12:00:00]", by decide, by decide⟩,
    .turn ⟨6, 0, by decide, by decide⟩ [], .poll (some true),
    .recv (some (cstr "SHOW_LOGS")) default [] ⟨7, 0, by decide, by decide⟩]

lemma isSome_showLogsRun : (run step idle showLogsRun).isSome = true := by
  decide +kernel

theorem one_session_showLogsRun :
    let events := trace step events idle showLogsRun
    ∃ s : Console, events.count .opened
        = events.count .closed + (if s.phase = .accepting then 0 else 1) ∧ .refused ∉ events := by
  obtain ⟨s, hs⟩ := Option.isSome_iff_exists.mp isSome_showLogsRun
  exact ⟨s, one_session hs⟩

end Console

end Pcd
