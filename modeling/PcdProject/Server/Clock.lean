import PcdProject.Server.Decoding
import PcdProject.Server.System

/-!
# The server with a clock

The server of `System` with an integer clock and the datagrams that wait on its UDP socket. The
clock advances only when `client_thread`, `processing_thread` and `watcher_thread` are blocked,
asleep or, the second of them, in a call of `system`; nothing is assumed of the other threads. One
client is observed: `heard` is the time of its registration or of its last heartbeat after it.
-/

namespace Pcd

open Transition

structure Timed where
  server : Server
  now : ℤ
  socket : List (Bytes × SockAddr)
  processingWake : ℤ
  watcherWake : ℤ
  clientSince : ℤ
  handled : Bool
  heard : Option ℤ

inductive TimedAction where
  | tick
  | arrive (d : Bytes) (src : SockAddr)
  | receive (buffer : Bytes) (newId : ClientId)
  | watcherSweep
  | clientSweep
  | server (a : Action)

namespace Timed

/-- The server started in `dir` at time 0. -/
def init (dir : Bytes) : Timed where
  server := .init dir
  now := 0
  socket := []
  processingWake := 0
  watcherWake := 0
  clientSince := 0
  handled := false
  heard := none

/-- `client_thread` waits for a datagram or for `jobs_mutex`. -/
def clientBlocked (s : Timed) : Bool :=
  match s.server.clientThread with
  | .receiving       => s.socket.isEmpty
  | .jobAppend _ _ _ => s.server.processing.holdsJobsMutex
  | _                => false

/-- `processing_thread` sleeps or executes a command. -/
def processingBlocked (s : Timed) : Bool :=
  match s.server.processing with
  | .sleeping    => s.now < s.processingWake
  | .running _ _ => true
  | _            => false

/-- The time that the step takes from the clock is the present, and the datagram is not chosen by
the step. -/
def punctual (now : ℤ) : Action → Bool
  | .client (.receive _ _ _ _ _) | .sweep _ => false
  | .client (.append _ t) | .client (.enqueue t) | .worker _ (.update t) => t = now
  | _ => true

/-- The state after a step of the server itself. -/
def withServer (s : Timed) (a : Action) (t : Server) : Timed :=
  match a with
  | .client _ =>
    { s with server := t, clientSince := s.now, handled := t.clientThread = .receiving }
  | .processing _ =>
    { s with
      server := t
      processingWake := if t.processing = .sleeping then s.now + 1 else s.processingWake }
  | _ => { s with server := t }

/-- `processing_thread` starts a pass only when it is awake. -/
def awake (s : Timed) : Action → Bool
  | .processing (.getcwd _) => s.processingWake ≤ s.now
  | _ => true

/-- The step of `client_thread` that the next datagram makes it take. -/
def receiveAction (s : Timed) (d : Bytes) (src : SockAddr) (buffer : Bytes) (newId : ClientId) :
    ClientAction :=
  .receive buffer (min d.length BUFFER_SIZE) src s.now newId

def registers (c newId : ClientId) (req : Option Request) : Bool :=
  match req with
  | some (.clientId _) => newId = c
  | _                  => false

/-- A step; `none` if it is not enabled. The client that is observed is `c`. -/
def step (c : ClientId) (s : Timed) (a : TimedAction) : Option Timed :=
  match a with
  | .tick =>
    if s.clientBlocked && s.processingBlocked && s.now < s.watcherWake then
      some { s with now := s.now + 1, handled := false }
    else none
  | .arrive d src =>
    some { s with
      socket := s.socket ++ [(d, src)]
      heard := if d = heartbeatDatagram c then s.heard.map fun _ => s.now else s.heard }
  | .receive buffer newId =>
    match s.socket with
    | []               => none
    | (d, src) :: rest =>
      if d.take BUFFER_SIZE <+: buffer then
        let a := s.receiveAction d src buffer newId
        let req := readRequest buffer (min d.length BUFFER_SIZE)
        (s.server.clientStep a).map fun t =>
          { s.withServer (.client a) t with
            socket := rest
            heard := if registers c newId req then some (s.heard.getD s.now) else s.heard }
      else none
  | .watcherSweep =>
    if s.watcherWake ≤ s.now then
      (s.server.step (.sweep s.now)).map fun t =>
        { s with server := t, watcherWake := s.now + HEARTBEAT_INTERVAL }
    else none
  | .clientSweep =>
    if s.handled then
      (s.server.step (.sweep s.now)).map fun t => { s with server := t, handled := false }
    else none
  | .server a =>
    if punctual s.now a && s.awake a then (s.server.step a).map (s.withServer a) else none

end Timed

/-! ### What a step changes -/

inductive TimedRule (c : ClientId) (s : Timed) : TimedAction → Timed → Prop where
  | tick (hclient : s.clientBlocked = true) (hprocessing : s.processingBlocked = true)
      (hwatcher : s.now < s.watcherWake) :
      TimedRule c s .tick { s with now := s.now + 1, handled := false }
  | arrive (d : Bytes) (src : SockAddr) :
      TimedRule c s (.arrive d src)
        { s with
          socket := s.socket ++ [(d, src)]
          heard := if d = heartbeatDatagram c then s.heard.map fun _ => s.now else s.heard }
  | receive (d : Bytes) (src : SockAddr) (rest : List (Bytes × SockAddr)) (buffer : Bytes)
      (newId : ClientId) (t : Server) (hsocket : s.socket = (d, src) :: rest)
      (hbuffer : d.take BUFFER_SIZE <+: buffer)
      (hstep : s.server.clientStep (s.receiveAction d src buffer newId) = some t) :
      TimedRule c s (.receive buffer newId)
        { s.withServer (.client (s.receiveAction d src buffer newId)) t with
          socket := rest
          heard :=
            if Timed.registers c newId (readRequest buffer (min d.length BUFFER_SIZE)) then
              some (s.heard.getD s.now)
            else s.heard }
  | watcherSweep (hwake : s.watcherWake ≤ s.now) :
      TimedRule c s .watcherSweep
        { s with
          server := { s.server with
            clients := cleanupDeadClients HEARTBEAT_TIMEOUT s.now s.server.clients }
          watcherWake := s.now + HEARTBEAT_INTERVAL }
  | clientSweep (hhandled : s.handled = true) :
      TimedRule c s .clientSweep
        { s with
          server := { s.server with
            clients := cleanupDeadClients HEARTBEAT_TIMEOUT s.now s.server.clients }
          handled := false }
  | server (a : Action) (t : Server) (hpunctual : Timed.punctual s.now a = true)
      (hawake : s.awake a = true) (hstep : s.server.step a = some t) :
      TimedRule c s (.server a) (s.withServer a t)

lemma TimedRule.of_step {c : ClientId} {s t : Timed} {a : TimedAction}
    (h : s.step c a = some t) : TimedRule c s a t := by
  cases a with
  | tick =>
    simp only [Timed.step] at h
    split_ifs at h with hblocked
    simp only [Bool.and_eq_true, decide_eq_true_eq] at hblocked
    cases h
    exact .tick hblocked.1.1 hblocked.1.2 hblocked.2
  | arrive d src =>
    cases h
    exact .arrive d src
  | receive buffer newId =>
    simp only [Timed.step] at h
    split at h
    · cases h
    · rename_i d src rest hsocket
      obtain ⟨hbuffer, h⟩ := Option.ite_none_right_eq_some.mp h
      obtain ⟨t, hstep, rfl⟩ := Option.map_eq_some_iff.mp h
      exact .receive d src rest buffer newId t hsocket hbuffer hstep
  | watcherSweep =>
    simp only [Timed.step] at h
    split_ifs at h with hwake
    cases h
    exact .watcherSweep hwake
  | clientSweep =>
    simp only [Timed.step] at h
    split_ifs at h with hhandled
    cases h
    exact .clientSweep hhandled
  | server a =>
    simp only [Timed.step] at h
    split_ifs at h with hguard
    obtain ⟨hpunctual, hawake⟩ := Bool.and_eq_true_iff.mp hguard
    obtain ⟨t, hstep, rfl⟩ := Option.map_eq_some_iff.mp h
    exact .server a t hpunctual hawake hstep

/-! ### The clock only restricts the server -/

/-- What the server does in a step. -/
def Timed.serverActions (s : Timed) (a : TimedAction) : List Action :=
  match a with
  | .tick | .arrive _ _ => []
  | .receive buffer newId =>
    match s.socket with
    | []            => []
    | (d, src) :: _ => [.client (s.receiveAction d src buffer newId)]
  | .watcherSweep | .clientSweep => [.sweep s.now]
  | .server a => [a]

@[simp] lemma Timed.withServer_server (s : Timed) (a : Action) (t : Server) :
    (s.withServer a t).server = t := by
  unfold Timed.withServer
  split <;> rfl

/-- Every run with the clock is a run of the server. -/
theorem Timed.run_server {c : ClientId} {dir : Bytes} {as : List TimedAction} {s : Timed}
    (h : run (Timed.step c) (.init dir) as = some s) :
    run Server.step (.init dir) (trace (Timed.step c) Timed.serverActions (.init dir) as)
      = some s.server := by
  refine run_simulation (I := fun _ => True) Timed.server Timed.serverActions
    (fun _ _ _ _ _ => trivial) ?_ trivial h
  intro s a t _ ha
  cases TimedRule.of_step ha with
  | tick | arrive | watcherSweep | clientSweep => rfl
  | receive d src rest buffer newId t hsocket hbuffer hstep =>
    simp [Timed.serverActions, hsocket, Server.step, hstep]
  | server a t hpunctual hawake hstep => simp [Timed.serverActions, hstep]

end Pcd
