import PcdProject.Server.Clock
import PcdProject.Server.JobTable

/-!
# Heartbeats in time

A client whose heartbeats arrive every ten seconds stays in the table, if `client_thread` never
waits for `jobs_mutex` so long that heartbeats ten seconds old when the wait begins expire.
-/

namespace Pcd

open Transition

/-! ### The first entry of a client -/

/-- The last heartbeat of the first entry with the id. -/
def lastSeen (c : ClientId) (clients : List ClientInfo) : Option ℤ :=
  (clients.find? fun x => x.clientId = c).map ClientInfo.lastHeartbeat

section Table

variable {c id : ClientId} {clients : List ClientInfo} {addr : SockAddr} {now h : ℤ}

lemma lastSeen_cons (x : ClientInfo) :
    lastSeen c (x :: clients) =
      if x.clientId = c then some x.lastHeartbeat else lastSeen c clients := by
  unfold lastSeen
  rw [List.find?_cons]
  by_cases hx : x.clientId = c <;> simp [hx]

lemma exists_mem_of_lastSeen (h : (lastSeen c clients).isSome) : ∃ x ∈ clients, x.clientId = c := by
  rw [lastSeen, Option.isSome_map, List.find?_isSome] at h
  obtain ⟨x, hx, hid⟩ := h
  exact ⟨x, hx, of_decide_eq_true hid⟩

lemma lastSeen_registerClient :
    lastSeen c (registerClient clients id addr now) =
      (lastSeen c clients).or (if id = c then some now else none) := by
  induction clients with
  | nil => simp [registerClient, lastSeen]
  | cons x clients ih =>
    rw [registerClient, List.cons_append, lastSeen_cons, lastSeen_cons]
    split_ifs with hx hid <;> simp_all [registerClient]

lemma lastSeen_updateHeartbeat :
    lastSeen c (updateHeartbeat clients id addr now) =
      if id = c then (lastSeen c clients).map fun _ => now else lastSeen c clients := by
  induction clients with
  | nil => simp [updateHeartbeat, lastSeen]
  | cons x clients ih =>
    rw [updateHeartbeat_cons, lastSeen_cons]
    by_cases hx : x.clientId = id
    · rw [if_pos hx, lastSeen_cons]
      by_cases hid : id = c <;> simp [hx, hid]
    · rw [if_neg hx, lastSeen_cons, ih]
      by_cases hxc : x.clientId = c
      · have hid : id ≠ c := fun hid => hx (hxc.trans hid.symm)
        simp [hxc, hid]
      · simp [hxc]

/-- A fresh entry survives a sweep. -/
lemma lastSeen_cleanupDeadClients {timeout : ℤ} (hseen : lastSeen c clients = some h)
    (hyoung : now - h < timeout) :
    lastSeen c (cleanupDeadClients timeout now clients) = some h := by
  induction clients with
  | nil => cases hseen
  | cons x clients ih =>
    rw [lastSeen_cons] at hseen
    unfold cleanupDeadClients at ih ⊢
    rw [List.filter_cons]
    split_ifs at hseen with hx
    · cases hseen
      rw [if_pos (decide_eq_true hyoung), lastSeen_cons, if_pos hx]
    · split_ifs
      · rw [lastSeen_cons, if_neg hx, ih hseen]
      · exact ih hseen

lemma lastSeen_kickClientById (hid : id ≠ c) :
    lastSeen c (kickClientById id clients) = lastSeen c clients := by
  induction clients with
  | nil => rfl
  | cons x clients ih =>
    unfold kickClientById at ih ⊢
    rw [List.eraseP_cons, lastSeen_cons]
    by_cases hx : x.clientId = id
    · have hxc : x.clientId ≠ c := fun hxc => hid (hx.symm.trans hxc)
      simp [hx, hid]
    · simp [hx, lastSeen_cons, ih]

lemma lastSeen_eq_none_of_sublist {clients' : List ClientInfo} (hsub : clients'.Sublist clients)
    (hnone : lastSeen c clients = none) : lastSeen c clients' = none := by
  rw [lastSeen, Option.map_eq_none_iff, List.find?_eq_none] at hnone ⊢
  exact fun x hx => hnone x (hsub.subset hx)

end Table

/-! ### The steps of the server, as far as the table of the clients goes -/

section Steps

variable {s t : Server} {c : ClientId}

lemma processing_of_clientStep {a : ClientAction} (h : s.clientStep a = some t) :
    t.processing = s.processing := by
  cases ClientRule.of_clientStep h <;> rfl

/-- `client_thread` does not pass the lock of `create_job` while `jobs_mutex` is held. -/
lemma clientStep_eq_none {a : ClientAction} {req : JobRequest} {cmd : Bytes} {src : SockAddr}
    (hpc : s.clientThread = .jobAppend req cmd src)
    (hheld : s.processing.holdsJobsMutex = true) : s.clientStep a = none := by
  cases a <;> simp [Server.clientStep, hpc, hheld]

/-- A step of a pass goes on with the pass or ends it. -/
lemma holds_of_processingRule {a : ProcessingAction} (h : ProcessingRule s a t)
    (hheld : s.processing.holdsJobsMutex = true) :
    t.processing = .sleeping ∨ t.processing.holdsJobsMutex = true := by
  cases h with
  | getcwd hpc | getcwdFail _ hpc | lock _ hpc =>
    rw [hpc] at hheld
    cases hheld
  | unlock => exact .inl rfl
  | ready | notReady | chdir | chdirFail | system | malloc | mallocFail | sendto | remove
  | chdirBack => exact .inr rfl

lemma lastSeen_dispatch {src : SockAddr} {now : ℤ} {newId : ClientId} {req : Option Request} :
    lastSeen c (s.dispatch src now newId req).clients =
      match req with
      | some (.clientId _)   => (lastSeen c s.clients).or (if newId = c then some now else none)
      | some (.heartbeat id) =>
        if id = c then (lastSeen c s.clients).map fun _ => now else lastSeen c s.clients
      | _ => lastSeen c s.clients := by
  cases req with
  | none => rfl
  | some req =>
    cases req with
    | clientId => exact lastSeen_registerClient
    | heartbeat => exact lastSeen_updateHeartbeat
    | job | upload | download => rfl

end Steps

/-! ### Why the last heartbeat is young enough -/

/-- The last heartbeat of the client is fresh; or `client_thread` waits for `jobs_mutex`, and the
heartbeat was fresh when the wait began; or the wait is over, and `processing_thread` sleeps until
`client_thread` is through with the datagrams. -/
inductive Timed.Place (s : Timed) (h : ℤ) : Prop where
  | fresh (hnow : s.now ≤ h + 10)
  | waiting (req : JobRequest) (cmd : Bytes) (src : SockAddr)
      (hpc : s.server.clientThread = .jobAppend req cmd src)
      (hheld : s.server.processing.holdsJobsMutex = true) (hsince : s.clientSince ≤ h + 10)
      (hshort : s.now < s.clientSince + 20)
  | resting (hproc : s.server.processing = .sleeping) (hwake : s.now < s.processingWake)
      (hyoung : s.now < h + 30)

def TimedAction.ticks : TimedAction → Bool
  | .tick => true
  | _     => false

def TimedAction.kicked : TimedAction → Option ClientId
  | .server (.kick id) => some id
  | _                  => none

namespace Timed

/-- `client_thread` is at the lock of `create_job`. -/
def appending (s : Timed) : Bool :=
  match s.server.clientThread with
  | .jobAppend _ _ _ => true
  | _                => false

/-- If `client_thread` waits in `create_job` while the clock advances, it has waited for less than
the time by which two heartbeats fall short of the timeout. -/
def AppendsQuickly (s : Timed) (a : TimedAction) : Prop :=
  a.ticks = true → s.appending = true →
    s.now + 1 < s.clientSince + (HEARTBEAT_TIMEOUT - HEARTBEAT_INTERVAL)

instance (s : Timed) (a : TimedAction) : Decidable (s.AppendsQuickly a) :=
  inferInstanceAs (Decidable (_ → _ → _))

namespace Place

variable {s : Timed} {h : ℤ}

lemma young (hs : s.Place h) : s.now - h < HEARTBEAT_TIMEOUT := by
  unfold HEARTBEAT_TIMEOUT
  cases hs <;> omega

lemma tick (hs : s.Place h) (hclient : s.clientBlocked = true) (hsince : s.clientSince ≤ s.now)
    (hidle : s.socket = [] → s.now + 1 ≤ h + 10) (hquick : s.AppendsQuickly .tick) :
    Place { s with now := s.now + 1, handled := false } h := by
  unfold clientBlocked at hclient
  split at hclient
  · exact .fresh (hidle (List.isEmpty_iff.mp hclient))
  · rename_i req cmd src hpc
    have hshort : s.now + 1 < s.clientSince + 20 := hquick rfl (by rw [appending, hpc])
    cases hs with
    | fresh hnow => exact .waiting req cmd src hpc hclient (hsince.trans hnow) hshort
    | waiting _ _ _ _ _ hold _ => exact .waiting req cmd src hpc hclient hold hshort
    | resting hproc _ _ =>
      rw [hproc] at hclient
      cases hclient
  · cases hclient

lemma of_client {a : ClientAction} {t : Server} (hs : s.Place h)
    (hstep : s.server.clientStep a = some t) : (s.withServer (.client a) t).Place h := by
  cases hs with
  | fresh hnow => exact .fresh hnow
  | waiting req cmd src hpc hheld _ _ =>
    rw [clientStep_eq_none hpc hheld] at hstep
    cases hstep
  | resting hproc hwake hyoung =>
    exact .resting ((processing_of_clientStep hstep).trans hproc) hwake hyoung

/-- When a pass ends, `processing_thread` sleeps beyond the present. -/
lemma of_processing {a : ProcessingAction} {t : Server} (hs : s.Place h)
    (hawake : s.awake (.processing a) = true) (hrule : ProcessingRule s.server a t) :
    (s.withServer (.processing a) t).Place h := by
  have hyoung := hs.young
  unfold HEARTBEAT_TIMEOUT at hyoung
  have rests : t.processing = .sleeping → (s.withServer (.processing a) t).Place h := by
    intro hproc
    refine .resting hproc ?_ (by change s.now < _; omega)
    simp only [withServer, hproc, if_true]
    omega
  cases hs with
  | fresh hnow => exact .fresh hnow
  | waiting req cmd src hpc hheld hsince hshort =>
    rcases holds_of_processingRule hrule hheld with hproc | hheld
    · exact rests hproc
    · have hclient : t.clientThread = s.server.clientThread := by cases hrule <;> rfl
      exact .waiting req cmd src (hclient.trans hpc) hheld hsince hshort
  | resting hproc hwake _ =>
    have hlate : ∀ ok, a ≠ .getcwd ok := by
      rintro ok rfl
      have hle : s.processingWake ≤ s.now := of_decide_eq_true hawake
      omega
    cases hrule with
    | getcwd | getcwdFail => exact absurd rfl (hlate _)
    | lock _ hpc | unlock _ _ hpc | ready _ _ _ hpc | notReady _ _ hpc | chdir _ _ _ hpc
    | chdirFail _ _ hpc | system _ _ _ _ hpc | malloc _ _ _ hpc | mallocFail _ _ _ hpc
    | sendto _ _ _ _ hpc | remove _ _ hpc | chdirBack _ _ _ hpc =>
      rw [hproc] at hpc
      cases hpc

/-- Steps that leave the two threads where they are. -/
lemma frame {t : Timed} (hs : s.Place h) (hclient : t.server.clientThread = s.server.clientThread)
    (hproc : t.server.processing = s.server.processing) (hnow : t.now = s.now)
    (hsince : t.clientSince = s.clientSince) (hwake : t.processingWake = s.processingWake) :
    t.Place h := by
  cases hs with
  | fresh h => exact .fresh (hnow ▸ h)
  | waiting req cmd src hpc hheld hold hshort =>
    refine .waiting req cmd src (hclient.trans hpc) (hproc ▸ hheld) (hsince ▸ hold) ?_
    rwa [hnow, hsince]
  | resting hsleep hlate hyoung =>
    refine .resting (hproc.trans hsleep) ?_ (hnow ▸ hyoung)
    rwa [hnow, hwake]

end Place

end Timed

/-! ### The invariant -/

/-- The client that is observed is in the table from its registration on. Its last heartbeat is not
older than the last one that was heard, unless that one still waits on the socket. -/
structure HeardInv (c : ClientId) (s : Timed) : Prop where
  since  : s.clientSince ≤ s.now
  past   : ∀ τ ∈ s.heard, τ ≤ s.now
  absent : s.heard = none → lastSeen c s.server.clients = none
  kept   : ∀ τ ∈ s.heard, ∃ h, lastSeen c s.server.clients = some h ∧ s.Place h ∧
    (τ ≤ h ∨ ∃ src, (heartbeatDatagram c, src) ∈ s.socket)

namespace Timed

/-- The client is not kicked, and no ten seconds pass without a heartbeat from it. -/
def HeartbeatsArrive (c : ClientId) (s : Timed) (a : TimedAction) : Prop :=
  a.kicked ≠ some c ∧
    (a.ticks = true → ∀ τ ∈ s.heard, s.now + 1 ≤ τ + HEARTBEAT_INTERVAL)

instance (c : ClientId) (s : Timed) (a : TimedAction) : Decidable (s.HeartbeatsArrive c a) :=
  inferInstanceAs (Decidable (_ ∧ (_ → ∀ τ ∈ s.heard, _)))

end Timed

namespace HeardInv

variable {c : ClientId} {s t : Timed} {a : TimedAction}

lemma init (c : ClientId) (dir : Bytes) : HeardInv c (Timed.init dir) where
  since := le_rfl
  past := by
    rintro τ ⟨⟩
  absent := fun _ => rfl
  kept := by
    rintro τ ⟨⟩

/-- The same entry of the client in the table, the same time and the same socket. -/
lemma frame (hs : HeardInv c s)
    (hclients : lastSeen c t.server.clients = lastSeen c s.server.clients)
    (hplace : ∀ h, s.Place h → t.Place h) (hnow : t.now = s.now)
    (hsince : t.clientSince ≤ t.now) (hheard : t.heard = s.heard) (hsocket : t.socket = s.socket) :
    HeardInv c t where
  since := hsince
  past := by
    rw [hheard, hnow]
    exact hs.past
  absent := by
    rw [hheard, hclients]
    exact hs.absent
  kept := by
    rw [hheard, hclients, hsocket]
    intro τ hτ
    obtain ⟨h, hseen, hold, hcoming⟩ := hs.kept τ hτ
    exact ⟨h, hseen, hplace h hold, hcoming⟩

lemma tick (hs : HeardInv c s) (hclient : s.clientBlocked = true)
    (harrive : s.HeartbeatsArrive c .tick) (hquick : s.AppendsQuickly .tick) :
    HeardInv c { s with now := s.now + 1, handled := false } where
  since := by
    have hsince := hs.since
    change s.clientSince ≤ s.now + 1
    omega
  past := by
    intro τ hτ
    have hpast := hs.past τ hτ
    change τ ≤ s.now + 1
    omega
  absent := hs.absent
  kept := by
    intro τ hτ
    obtain ⟨h, hseen, hplace, hcoming⟩ := hs.kept τ hτ
    refine ⟨h, hseen, hplace.tick hclient hs.since ?_ hquick, hcoming⟩
    -- an idle `client_thread` has handled the last heartbeat
    intro hidle
    have hheard : τ ≤ h := by
      rcases hcoming with hle | ⟨src, hmem⟩
      · exact hle
      · rw [hidle] at hmem
        cases hmem
    have hlast : s.now + 1 ≤ τ + 10 := harrive.2 rfl τ hτ
    omega

lemma arrive (hs : HeardInv c s) (d : Bytes) (src : SockAddr) :
    HeardInv c
      { s with
        socket := s.socket ++ [(d, src)]
        heard := if d = heartbeatDatagram c then s.heard.map fun _ => s.now else s.heard } := by
  have kept : ∀ τ ∈ s.heard, ∃ h, lastSeen c s.server.clients = some h ∧
      Timed.Place { s with socket := s.socket ++ [(d, src)] } h ∧
      (τ ≤ h ∨ ∃ src', (heartbeatDatagram c, src') ∈ s.socket ++ [(d, src)]) := by
    intro τ hτ
    obtain ⟨h, hseen, hplace, hcoming⟩ := hs.kept τ hτ
    refine ⟨h, hseen, hplace.frame rfl rfl rfl rfl rfl, hcoming.imp_right ?_⟩
    rintro ⟨src', hmem⟩
    exact ⟨src', List.mem_append_left _ hmem⟩
  by_cases hd : d = heartbeatDatagram c
  · simp only [if_pos hd]
    refine ⟨hs.since, ?_, ?_, ?_⟩
    · intro τ hτ
      obtain ⟨-, -, rfl⟩ := Option.mem_map.mp hτ
      exact le_rfl
    · intro hnone
      exact hs.absent (Option.map_eq_none_iff.mp hnone)
    · intro τ hτ
      obtain ⟨τ', hτ', -⟩ := Option.mem_map.mp hτ
      obtain ⟨h, hseen, hplace, -⟩ := kept τ' hτ'
      refine ⟨h, hseen, hplace.frame rfl rfl rfl rfl rfl, .inr ⟨src, ?_⟩⟩
      rw [hd]
      exact List.mem_append_right _ (List.mem_singleton_self _)
  · simp only [if_neg hd]
    refine ⟨hs.since, hs.past, hs.absent, ?_⟩
    intro τ hτ
    obtain ⟨h, hseen, hplace, hcoming⟩ := kept τ hτ
    exact ⟨h, hseen, hplace.frame rfl rfl rfl rfl rfl, hcoming⟩

/-- The client survives the sweeps. -/
lemma sweep (hs : HeardInv c s) (wake : ℤ) (handled : Bool) :
    HeardInv c
      { s with
        server := { s.server with
          clients := cleanupDeadClients HEARTBEAT_TIMEOUT s.now s.server.clients }
        watcherWake := wake
        handled := handled } where
  since := hs.since
  past := hs.past
  absent := fun hnone => lastSeen_eq_none_of_sublist List.filter_sublist (hs.absent hnone)
  kept := by
    intro τ hτ
    obtain ⟨h, hseen, hplace, hcoming⟩ := hs.kept τ hτ
    refine ⟨h, lastSeen_cleanupDeadClients hseen hplace.young, ?_, hcoming⟩
    exact hplace.frame rfl rfl rfl rfl rfl

lemma server {a : Action} {t : Server} (hs : HeardInv c s)
    (hpunctual : Timed.punctual s.now a = true) (hawake : s.awake a = true)
    (harrive : s.HeartbeatsArrive c (.server a)) (hstep : s.server.step a = some t) :
    HeardInv c (s.withServer a t) := by
  have place : ∀ h {u : Server}, u.clientThread = s.server.clientThread →
      u.processing = s.server.processing → s.Place h → Timed.Place { s with server := u } h :=
    fun h _ hclient hproc hplace => hplace.frame hclient hproc rfl rfl rfl
  cases SystemRule.of_step hstep with
  | client a =>
    have hclients : t.clients = s.server.clients := by
      cases DatagramRule.of_clientStep hstep with
      | receive => cases hpunctual
      | goOn _ _ _ hclients => exact hclients
    exact hs.frame (congrArg (lastSeen c) hclients) (fun h hplace => hplace.of_client hstep) rfl
      le_rfl rfl rfl
  | processing a _ hrule =>
    have hclients : t.clients = s.server.clients := by cases hrule <;> rfl
    exact hs.frame (congrArg (lastSeen c) hclients)
      (fun h hplace => hplace.of_processing hawake hrule) rfl hs.since rfl rfl
  | worker w a _ hrule =>
    cases hrule <;> exact hs.frame rfl (fun h => place h rfl rfl) rfl hs.since rfl rfl
  | download a _ hrule =>
    cases hrule <;> exact hs.frame rfl (fun h => place h rfl rfl) rfl hs.since rfl rfl
  | kick id =>
    have hclients : lastSeen c (kickClientById id s.server.clients) = lastSeen c s.server.clients :=
      lastSeen_kickClientById fun hid => harrive.1 (congrArg some hid)
    exact hs.frame hclients (fun h => place h rfl rfl) rfl hs.since rfl rfl
  | sweep => cases hpunctual
  | limit | limitIgnored | connectUpload | connectDownload =>
    exact hs.frame rfl (fun h => place h rfl rfl) rfl hs.since rfl rfl

/-- The datagram of a heartbeat is read as one, whatever is left over in the buffer. -/
lemma readRequest_of_heartbeat {d buffer : Bytes} (hd : d = heartbeatDatagram c)
    (hbuffer : d.take BUFFER_SIZE <+: buffer) :
    readRequest buffer (min d.length BUFFER_SIZE) = some (.heartbeat c) := by
  have hlen : d.length = 17 := hd ▸ length_heartbeatDatagram c
  have hmax : 17 ≤ BUFFER_SIZE := by decide
  rw [List.take_of_length_le (hlen.le.trans hmax)] at hbuffer
  obtain ⟨leftOver, rfl⟩ := hbuffer
  rw [hlen, min_eq_left hmax, hd]
  exact readRequest_heartbeatDatagram c leftOver

/-- What the next datagram makes of the entry of a client that has been heard. -/
lemma lastSeen_receive {req : Option Request} {newId : ClientId} {src : SockAddr} {h : ℤ}
    (hseen : lastSeen c s.server.clients = some h) :
    lastSeen c (s.server.dispatch src s.now newId req).clients = some s.now ∨
      lastSeen c (s.server.dispatch src s.now newId req).clients = some h ∧
        req ≠ some (.heartbeat c) := by
  rw [lastSeen_dispatch, hseen]
  split
  · exact .inr ⟨rfl, by simp⟩
  · rename_i id
    split_ifs with hid
    · exact .inl rfl
    · refine .inr ⟨rfl, ?_⟩
      rintro ⟨⟩
      exact hid rfl
  · rename_i hother
    exact .inr ⟨rfl, hother c⟩

/-- What the next datagram makes of a client that is not in the table. -/
lemma lastSeen_receive_none {req : Option Request} {newId : ClientId} {src : SockAddr}
    (habsent : lastSeen c s.server.clients = none) :
    lastSeen c (s.server.dispatch src s.now newId req).clients =
      if Timed.registers c newId req then some s.now else none := by
  rw [lastSeen_dispatch, habsent]
  cases req with
  | none => rfl
  | some req =>
    cases req with
    | clientId => simp only [Timed.registers, Option.none_or, decide_eq_true_eq]
    | heartbeat => exact ite_self none
    | job | upload | download => rfl

lemma receive {d : Bytes} {src : SockAddr} {rest : List (Bytes × SockAddr)} {buffer : Bytes}
    {newId : ClientId} {t : Server} (hs : HeardInv c s) (hsocket : s.socket = (d, src) :: rest)
    (hbuffer : d.take BUFFER_SIZE <+: buffer)
    (hstep : s.server.clientStep (s.receiveAction d src buffer newId) = some t) :
    HeardInv c
      { s.withServer (.client (s.receiveAction d src buffer newId)) t with
        socket := rest
        heard :=
          if Timed.registers c newId (readRequest buffer (min d.length BUFFER_SIZE)) then
            some (s.heard.getD s.now)
          else s.heard } := by
  have ht : t = s.server.dispatch src s.now newId
      (readRequest buffer (min d.length BUFFER_SIZE)) := by
    cases DatagramRule.of_clientStep hstep with
    | receive => rfl
    | goOn _ _ ha => cases ha
  have place : ∀ {h heard}, s.Place h → Timed.Place
      { s.withServer (.client (s.receiveAction d src buffer newId)) t with
        socket := rest
        heard := heard } h :=
    fun hplace => (hplace.of_client hstep).frame rfl rfl rfl rfl rfl
  have hreq : d = heartbeatDatagram c → _ := fun hd => readRequest_of_heartbeat hd hbuffer
  generalize readRequest buffer (min d.length BUFFER_SIZE) = req at ht hreq ⊢
  cases hheard : s.heard with
  | none =>
    have hseen : lastSeen c t.clients = if Timed.registers c newId req then some s.now else none :=
      ht ▸ lastSeen_receive_none (hs.absent hheard)
    by_cases hreg : Timed.registers c newId req = true
    · rw [if_pos hreg] at hseen
      simp only [if_pos hreg]
      refine ⟨le_rfl, ?_, by rintro ⟨⟩, ?_⟩
      · rintro τ ⟨⟩
        exact le_rfl
      · rintro τ ⟨⟩
        exact ⟨s.now, hseen, .fresh (by change s.now ≤ _; omega), .inl le_rfl⟩
    · rw [if_neg hreg] at hseen
      simp only [if_neg hreg]
      exact ⟨le_rfl, by rintro τ ⟨⟩, fun _ => hseen, by rintro τ ⟨⟩⟩
  | some τ =>
    obtain ⟨h, hseen, hplace, hcoming⟩ := hs.kept τ hheard
    have hpast := hs.past τ hheard
    simp only [Option.getD_some, ite_self]
    refine ⟨le_rfl, ?_, by rintro ⟨⟩, ?_⟩
    · rintro τ' ⟨⟩
      exact hpast
    · rintro τ' ⟨⟩
      rcases lastSeen_receive hseen with hnew | ⟨hsame, hother⟩
      · exact ⟨s.now, ht ▸ hnew, .fresh (by change s.now ≤ _; omega), .inl hpast⟩
      · refine ⟨h, ht ▸ hsame, place hplace, hcoming.imp_right ?_⟩
        -- the first datagram on the socket was not the heartbeat
        rintro ⟨src', hmem⟩
        rw [hsocket] at hmem
        rcases List.mem_cons.mp hmem with heq | hmem
        · exact absurd (hreq (Prod.mk.inj heq).1.symm) hother
        · exact ⟨src', hmem⟩

lemma step (hs : HeardInv c s) (harrive : s.HeartbeatsArrive c a) (hquick : s.AppendsQuickly a)
    (h : s.step c a = some t) : HeardInv c t := by
  cases TimedRule.of_step h with
  | tick hclient hprocessing hwatcher => exact hs.tick hclient harrive hquick
  | arrive d src => exact hs.arrive d src
  | receive d src rest buffer newId t hsocket hbuffer hstep =>
    exact hs.receive hsocket hbuffer hstep
  | watcherSweep => exact hs.sweep _ _
  | clientSweep => exact hs.sweep _ _
  | server a t hpunctual hawake hstep => exact hs.server hpunctual hawake harrive hstep

end HeardInv

/-! ### Main result -/

/-- A client that is not kicked and whose heartbeats arrive in time stays in the table, in every run
in which `client_thread` never waits for twenty seconds in `create_job`. -/
theorem client_kept (c : ClientId) (dir : Bytes) (as : List TimedAction)
    (harrive : Along (Timed.step c) (Timed.HeartbeatsArrive c) (.init dir) as)
    (hquick : Along (Timed.step c) Timed.AppendsQuickly (.init dir) as) :
    Always (Timed.step c)
      (fun s => s.heard.isSome → ∃ x ∈ s.server.clients, x.clientId = c) (.init dir) as := by
  have hC : Along (Timed.step c) (fun s a => s.HeartbeatsArrive c a ∧ s.AppendsQuickly a)
      (.init dir) as :=
    fun pre a s hpre hrun => ⟨harrive pre a s hpre hrun, hquick pre a s hpre hrun⟩
  refine always_of_along (fun s a t hs hC h => hs.step hC.1 hC.2 h) ?_ (HeardInv.init c dir) hC
  intro s hs hheard
  obtain ⟨τ, hτ⟩ := Option.isSome_iff_exists.mp hheard
  obtain ⟨h, hseen, -⟩ := hs.kept τ hτ
  exact exists_mem_of_lastSeen (Option.isSome_of_mem hseen)

/-- A client registers. A pass over the jobs takes `jobs_mutex` and finds one that is ready, another
request passes the look at the directory of its job, the command begins, and `client_thread` waits
behind it. After every ten seconds the table is swept and a heartbeat of the client arrives. -/
def heartbeatRun (c : ClientId) (beats : ℕ) : List TimedAction :=
  let hello := CLayout.pack 0 ClientIdRequest.layout [[MessageType.clientIdReq.code], [1, 0, 0, 0]]
  let req : JobRequest := ⟨1, Vector.replicate 16 2, 7, 0, 4⟩
  let d := req.datagram 0 (cstr "true")
  let request : List TimedAction :=
    [.arrive d ⟨2, 2⟩, .receive (fillBuffer d 0) c, .server (.client (.stat (some ⟨true, 0⟩)))]
  [.arrive hello ⟨1, 1⟩, .receive (fillBuffer hello 0) c, .watcherSweep]
    ++ request
    ++ [.server (.client (.append true 0)), .server (.client (.reply true)),
      .server (.processing (.getcwd true)), .server (.processing .lock),
      .server (.processing .check)]
    -- the working directory is still the one in which the server was started
    ++ request
    ++ [.server (.processing (.chdir true))]
    ++ (List.replicate beats
      (List.replicate 10 .tick ++ [.watcherSweep, .arrive (heartbeatDatagram c) ⟨1, 1⟩])).flatten

/-- The command takes ten seconds. -/
theorem client_kept_heartbeatRun :
    ∃ s, run (Timed.step (Vector.replicate 16 1)) (.init [])
        (heartbeatRun (Vector.replicate 16 1) 1) = some s ∧
      s.now = 10 ∧ s.heard = some 10 ∧
        ∃ x ∈ s.server.clients, x.clientId = Vector.replicate 16 1 := by
  obtain ⟨s, hs, hend⟩ := Option.map_eq_some_iff.mp
    (show (run (Timed.step (Vector.replicate 16 1)) (.init [])
      (heartbeatRun (Vector.replicate 16 1) 1)).map (fun s => (s.now, s.heard))
        = some (10, some 10) by decide +kernel)
  obtain ⟨hnow, hheard⟩ := Prod.mk.inj hend
  have hkept := client_kept (Vector.replicate 16 1) [] (heartbeatRun (Vector.replicate 16 1) 1)
    (by decide +kernel) (by decide +kernel)
  exact ⟨s, hs, hnow, hheard, hkept _ s (List.prefix_refl _) hs (by rw [hheard]; rfl)⟩

/-- The command takes thirty seconds. -/
theorem not_client_kept_heartbeatRun :
    ¬ ∀ (c : ClientId) (dir : Bytes) (as : List TimedAction),
      Along (Timed.step c) (Timed.HeartbeatsArrive c) (.init dir) as →
      Always (Timed.step c)
        (fun s => s.heard.isSome → ∃ x ∈ s.server.clients, x.clientId = c) (.init dir) as := by
  intro h
  obtain ⟨s, hs, hend⟩ := Option.map_eq_some_iff.mp
    (show (run (Timed.step (Vector.replicate 16 1)) (.init [])
      (heartbeatRun (Vector.replicate 16 1) 3)).map
        (fun s => (s.heard.isSome, s.server.clients.isEmpty)) = some (true, true) by decide +kernel)
  obtain ⟨hheard, hempty⟩ := Prod.mk.inj hend
  obtain ⟨x, hx, -⟩ := h (Vector.replicate 16 1) [] (heartbeatRun (Vector.replicate 16 1) 3)
    (by decide +kernel) _ s (List.prefix_refl _) hs hheard
  rw [List.isEmpty_iff.mp hempty] at hx
  cases hx

end Pcd
