import PcdProject.Core.Transition
import PcdProject.Network.PyAgreement

/-!
# The two receivers of the Python client

The main thread waits for replies in `send_with_retry`, a second thread for job results in
`listen_for_results`, and both call `recvfrom` on the one UDP socket of the client. A datagram goes
to the thread that takes it first, whatever it is.
-/

namespace Pcd

open Transition

namespace PyClient

def UDP_RETRIES : ℕ := 3

/-- A call of `send_with_retry`, and the message id in its packet. -/
structure Call where
  number : ℕ
  msgId : UInt32
  deriving DecidableEq

/-- What a datagram is: the reply to the packet of a call, a job result, or anything else that
somebody sends to the port. -/
inductive Purpose where
  | ack (call : Call)
  | jobResult
  | other
  deriving DecidableEq

def Purpose.isAck : Purpose → Bool
  | .ack _ => true
  | _      => false

lemma Purpose.isAck_eq_false_iff (p : Purpose) : p.isAck = false ↔ ∀ call, p ≠ .ack call := by
  cases p <;> simp [isAck]

structure Datagram where
  data : Bytes
  purpose : Purpose
  deriving DecidableEq

/-- `bytes.decode` does not raise. -/
def Decodable (bs : Bytes) : Prop := ByteArray.IsValidUTF8 ⟨bs.toArray⟩

instance (bs : Bytes) : Decidable (Decodable bs) :=
  inferInstanceAs (Decidable (ByteArray.IsValidUTF8 _))

inductive Listened where
  | handled (result : JobResult)
  | ignored
  | raised
  deriving DecidableEq

/-- The body of the loop of `listen_for_results`. Of an empty datagram it cannot read `data[0]`. -/
def listen (d : Bytes) : Listened :=
  if d.take RECV_SIZE = [] then .raised
  else match unpackJobResult d with
    | none        => .ignored
    | some result => if Decodable result.message then .handled result else .raised

/-- The datagram passes the tests of `listen_for_results`, and its text can be decoded. -/
structure Readable (d : Bytes) : Prop where
  type     : d.headD 0 = 7
  complete : 27 ≤ (d.take RECV_SIZE).length
  text     : Decodable (slice (d.take RECV_SIZE) 27 (27 + ((d.take RECV_SIZE).getD 26 0).toNat))

instance (d : Bytes) : Decidable (Readable d) :=
  decidable_of_iff (d.headD 0 = 7 ∧ 27 ≤ (d.take RECV_SIZE).length ∧
      Decodable (slice (d.take RECV_SIZE) 27 (27 + ((d.take RECV_SIZE).getD 26 0).toNat)))
    ⟨fun ⟨htype, hlen, htext⟩ => ⟨htype, hlen, htext⟩, fun h => ⟨h.type, h.complete, h.text⟩⟩

lemma exists_listen_eq_handled_iff (d : Bytes) :
    (∃ result, listen d = .handled result) ↔ Readable d := by
  have hhead : (d.take RECV_SIZE).headD 0 = d.headD 0 := by cases d <;> rfl
  constructor
  · rintro ⟨result, h⟩
    rw [listen] at h
    split_ifs at h with hnil
    cases hunpack : unpackJobResult d with
    | none =>
      rw [hunpack] at h
      cases h
    | some value =>
      simp only [hunpack] at h
      split_ifs at h with htext
      simp only [unpackJobResult] at hunpack
      split_ifs at hunpack with htests
      obtain ⟨htype, hlen⟩ := htests
      cases hunpack
      exact ⟨hhead ▸ htype, hlen, htext⟩
  · rintro ⟨htype, hlen, htext⟩
    have hnil : d.take RECV_SIZE ≠ [] := by
      intro hnil
      rw [hnil] at hlen
      simp at hlen
    have hunpack : unpackJobResult d = some _ := if_pos ⟨hhead.trans htype, hlen⟩
    rw [listen, if_neg hnil, hunpack]
    exact ⟨_, if_pos htext⟩

inductive MainPhase where
  | idle
  | sending (call : Call) (attempt : ℕ)
  | receiving (call : Call) (attempt : ℕ)
  | raised
  deriving DecidableEq

/-- The call that is going on. -/
def MainPhase.call : MainPhase → Option Call
  | .sending call _ | .receiving call _ => some call
  | _ => none

inductive ListenerPhase where
  | notStarted
  | receiving
  | ended
  deriving DecidableEq

/-- The client with its socket, in which the datagrams wait in the order of their arrival, and the
calls that have sent their packet. -/
structure Receivers where
  socket : List Datagram
  main : MainPhase
  listener : ListenerPhase
  running : Bool
  calls : ℕ
  sent : List Call
  deriving DecidableEq

/-- How `recvfrom` ends. -/
inductive RecvEnd where
  | datagram
  | timeout
  | error

inductive ReceiverAction where
  | call (msgId : UInt32)
  | sendto (success : Bool)
  | mainRecv (result : RecvEnd)
  | startListener
  | listenerRecv (result : RecvEnd)
  | shutdown
  | arrive (d : Datagram)

namespace Receivers

def init : Receivers where
  socket := []
  main := .idle
  listener := .notStarted
  running := true
  calls := 0
  sent := []

/-- `while self.running` -/
def listenerLoop (s : Receivers) : ListenerPhase := if s.running then .receiving else .ended

/-- A step of one of the threads, or the arrival of a datagram. A `recvfrom` times out only while
nothing is there, and a reply arrives only for a packet that was sent. -/
def step (s : Receivers) : ReceiverAction → Option Receivers
  | .call msgId =>
    if s.main = .idle ∧ s.running then
      some { s with main := .sending ⟨s.calls, msgId⟩ 0, calls := s.calls + 1 }
    else none
  | .sendto success =>
    match s.main with
    | .sending call attempt =>
      if success then some { s with main := .receiving call attempt, sent := call :: s.sent }
      -- the exception leaves `main`, and the process ends
      else some { s with main := .raised, listener := .ended }
    | _ => none
  | .mainRecv result =>
    match s.main, result, s.socket with
    | .receiving _ _, .datagram, _ :: rest => some { s with main := .idle, socket := rest }
    | .receiving call attempt, .timeout, [] =>
      some { s with
        main := if attempt + 1 < UDP_RETRIES then .sending call (attempt + 1) else .idle }
    | .receiving _ _, .error, _ => some { s with main := .idle }
    | _, _, _ => none
  | .startListener =>
    if s.main = .idle ∧ s.listener = .notStarted then some { s with listener := s.listenerLoop }
    else none
  | .listenerRecv result =>
    match s.listener, result, s.socket with
    | .receiving, .datagram, d :: rest =>
      some { s with
        listener := if listen d.data = .raised then .ended else s.listenerLoop
        socket := rest }
    | .receiving, .timeout, [] => some { s with listener := s.listenerLoop }
    | .receiving, .error, _ => some { s with listener := .ended }
    | _, _, _ => none
  | .shutdown => if s.main = .idle then some { s with running := false } else none
  | .arrive d =>
    match d.purpose with
    | .ack call => if call ∈ s.sent then some { s with socket := s.socket ++ [d] } else none
    | _         => some { s with socket := s.socket ++ [d] }

end Receivers

/-- What became of a datagram: a call of `send_with_retry` returned it, or the listener took it. -/
inductive Fate where
  | returned (call : Call)
  | listened (outcome : Listened)
  deriving DecidableEq

structure Delivery where
  datagram : Datagram
  fate : Fate
  deriving DecidableEq

/-- A reply is returned by the call whose packet it answers, a job result is handled. -/
def Delivery.Proper (delivery : Delivery) : Prop :=
  match delivery.datagram.purpose with
  | .ack call  => delivery.fate = .returned call
  | .jobResult => ∃ result, delivery.fate = .listened (.handled result)
  | .other     => True

namespace Receivers

def deliveries (s : Receivers) : ReceiverAction → List Delivery
  | .mainRecv .datagram =>
    match s.main, s.socket with
    | .receiving call _, d :: _ => [⟨d, .returned call⟩]
    | _, _ => []
  | .listenerRecv .datagram =>
    match s.listener, s.socket with
    | .receiving, d :: _ => [⟨d, .listened (listen d.data)⟩]
    | _, _ => []
  | _ => []

def arrivals (_ : Receivers) : ReceiverAction → List Datagram
  | .arrive d => [d]
  | _         => []

/-- A datagram that waits can still go to its thread: the call of a reply is going on, the listener
has not ended before a job result. -/
def CanTake (s : Receivers) (d : Datagram) : Prop :=
  match d.purpose with
  | .ack call  => s.main.call = some call
  | .jobResult => s.listener ≠ .ended
  | .other     => True

/-! ### The condition -/

def NoAck (s : Receivers) : Prop := ∀ d ∈ s.socket, ∀ call, d.purpose ≠ .ack call

def NoResult (s : Receivers) : Prop := ∀ d ∈ s.socket, d.purpose ≠ .jobResult

/-- A reply arrives during its call, with nothing else in the socket and no listener at it. A job
result arrives while no call is going on, the listener can read it, and nothing in front of it ends
the listener. -/
def ArrivesInTurn (s : Receivers) (data : Bytes) : Purpose → Prop
  | .ack call  => s.main.call = some call ∧ s.socket = [] ∧ s.listener ≠ .receiving
  | .jobResult => (s.main = .idle ∧ s.running = true ∧ s.listener ≠ .ended) ∧ Readable data ∧
    ∀ e ∈ s.socket, listen e.data ≠ .raised
  | .other     => True

/-- While a reply or a job result waits, its thread does not go on to something else, and no new
call begins in front of a job result. -/
def InTurn (s : Receivers) : ReceiverAction → Prop
  | .arrive d => s.ArrivesInTurn d.data d.purpose
  | .call _ | .shutdown | .listenerRecv .error => s.NoResult
  | .sendto false | .mainRecv .error           => s.NoAck
  | _ => True

instance (s : Receivers) : Decidable s.NoAck :=
  decidable_of_iff (∀ d ∈ s.socket, d.purpose.isAck = false)
    (forall₂_congr fun d _ => d.purpose.isAck_eq_false_iff)

instance (s : Receivers) : Decidable s.NoResult :=
  inferInstanceAs (Decidable (∀ d ∈ s.socket, d.purpose ≠ .jobResult))

instance (s : Receivers) (data : Bytes) (purpose : Purpose) :
    Decidable (s.ArrivesInTurn data purpose) :=
  match purpose with
  | .ack _     => inferInstanceAs (Decidable (_ ∧ _ ∧ _))
  | .jobResult => inferInstanceAs (Decidable ((_ ∧ _ ∧ _) ∧ _ ∧ ∀ e ∈ s.socket, _))
  | .other     => .isTrue trivial

instance (s : Receivers) (a : ReceiverAction) : Decidable (s.InTurn a) :=
  match a with
  | .arrive d => inferInstanceAs (Decidable (s.ArrivesInTurn d.data d.purpose))
  | .call _ | .shutdown | .listenerRecv .error => inferInstanceAs (Decidable s.NoResult)
  | .sendto false | .mainRecv .error           => inferInstanceAs (Decidable s.NoAck)
  | .sendto true | .mainRecv .datagram | .mainRecv .timeout | .startListener
  | .listenerRecv .datagram | .listenerRecv .timeout => .isTrue trivial

/-! ### What a step does to the socket -/

inductive SocketRule (s : Receivers) : ReceiverAction → Receivers → Prop where
  | mainTakes (call : Call) (attempt : ℕ) (d : Datagram) (rest : List Datagram)
      (hmain : s.main = .receiving call attempt) (hsocket : s.socket = d :: rest) :
      SocketRule s (.mainRecv .datagram) { s with main := .idle, socket := rest }
  | listenerTakes (d : Datagram) (rest : List Datagram) (hlistener : s.listener = .receiving)
      (hsocket : s.socket = d :: rest) :
      SocketRule s (.listenerRecv .datagram) { s with
        listener := if listen d.data = .raised then .ended else s.listenerLoop
        socket := rest }
  | arrives (d : Datagram) (hsent : ∀ call, d.purpose = .ack call → call ∈ s.sent) :
      SocketRule s (.arrive d) { s with socket := s.socket ++ [d] }
  | keeps (a : ReceiverAction) (t : Receivers) (hsocket : t.socket = s.socket)
      (hdeliveries : s.deliveries a = []) (harrivals : s.arrivals a = []) : SocketRule s a t

variable {s t : Receivers} {a : ReceiverAction} {as : List ReceiverAction}

lemma SocketRule.of_step (h : step s a = some t) : SocketRule s a t := by
  cases a with
  | call msgId | startListener | shutdown =>
    simp only [step] at h
    split_ifs at h
    cases h
    exact .keeps _ _ rfl rfl rfl
  | sendto success =>
    simp only [step] at h
    split at h
    · split_ifs at h <;> cases h <;> exact .keeps _ _ rfl rfl rfl
    · cases h
  | mainRecv result =>
    simp only [step] at h
    split at h
    case h_1 call attempt d rest hmain hsocket =>
      cases h
      exact .mainTakes call attempt d rest hmain hsocket
    case h_2 | h_3 =>
      cases h
      exact .keeps _ _ rfl rfl rfl
    case h_4 => cases h
  | listenerRecv result =>
    simp only [step] at h
    split at h
    case h_1 d rest hlistener hsocket =>
      cases h
      exact .listenerTakes d rest hlistener hsocket
    case h_2 | h_3 =>
      cases h
      exact .keeps _ _ rfl rfl rfl
    case h_4 => cases h
  | arrive d =>
    simp only [step] at h
    split at h
    case h_1 call hpurpose =>
      split_ifs at h with hsent
      cases h
      refine .arrives d fun other hother => ?_
      rw [hpurpose] at hother
      cases hother
      exact hsent
    case h_2 hpurpose =>
      cases h
      exact .arrives d fun call hcall => absurd hcall (hpurpose call)

/-- The socket is a queue. -/
lemma socket_step (h : step s a = some t) :
    s.socket ++ s.arrivals a = (s.deliveries a).map (·.datagram) ++ t.socket := by
  cases SocketRule.of_step h with
  | mainTakes call attempt d rest hmain hsocket => simp [deliveries, arrivals, hmain, hsocket]
  | listenerTakes d rest hlistener hsocket => simp [deliveries, arrivals, hlistener, hsocket]
  | arrives d => simp [deliveries, arrivals]
  | keeps _ _ hsocket hdeliveries harrivals => simp [hsocket, hdeliveries, harrivals]

/-- The datagrams are taken in the order in which they arrive, each once. -/
lemma trace_arrivals (h : run step init as = some s) :
    trace step arrivals init as =
      (trace step deliveries init as).map (·.datagram) ++ s.socket := by
  refine run_induction (P := fun as s => trace step arrivals init as =
    (trace step deliveries init as).map (·.datagram) ++ s.socket) rfl ?_ h
  intro as a s t hrun hstep ih
  rw [trace_concat a hrun, trace_concat a hrun, ih, List.map_append, List.append_assoc,
    List.append_assoc, socket_step hstep]

/-! ### Both threads at the socket -/

/-- Nothing in a run so far keeps a reply or a job result in front of the socket from the wrong
thread, while both threads wait. -/
lemma exists_run_not_proper {call : Call} {attempt : ℕ} {d : Datagram} {rest : List Datagram}
    (h : run step init as = some s) (hmain : s.main = .receiving call attempt)
    (hlistener : s.listener = .receiving) (hsocket : s.socket = d :: rest)
    (hpurpose : d.purpose ≠ .other) :
    ∃ a t, run step init (as ++ [a]) = some t ∧
      ¬ ∀ delivery ∈ trace step deliveries init (as ++ [a]), delivery.Proper := by
  have wrong : ∀ a t delivery, step s a = some t → delivery ∈ s.deliveries a →
      ¬ delivery.Proper → ∃ a t, run step init (as ++ [a]) = some t ∧
        ¬ ∀ delivery ∈ trace step deliveries init (as ++ [a]), delivery.Proper := by
    intro a t delivery hstep hdelivery hnot
    refine ⟨a, t, run_concat_eq_some.mpr ⟨s, h, hstep⟩, fun hall => hnot (hall delivery ?_)⟩
    rw [trace_concat a h]
    exact List.mem_append_right _ hdelivery
  cases hd : d.purpose with
  | ack other =>
    refine wrong (.listenerRecv .datagram) _ ⟨d, .listened (listen d.data)⟩
      (by simp [step, hlistener, hsocket]; rfl) (by simp [deliveries, hlistener, hsocket]) ?_
    simp [Delivery.Proper, hd]
  | jobResult =>
    refine wrong (.mainRecv .datagram) _ ⟨d, .returned call⟩
      (by simp [step, hmain, hsocket]; rfl) (by simp [deliveries, hmain, hsocket]) ?_
    simp [Delivery.Proper, hd]
  | other => exact absurd hd hpurpose

/-- What the server sends as a job result the listener cannot read. -/
lemma not_readable_jobResult (unset : Unset) (jobId : UInt32) (status : StatusCode)
    (msg : String) : ¬ Readable (Reply.datagram unset (.jobResult jobId status msg)) := by
  intro h
  have htype : (8 : UInt8) = 7 := h.type
  revert htype
  decide

/-! ### The invariant -/

/-- A reply waits only in front and while no other thread is at the socket, a job result only while
the listener is the only one that will come. -/
structure Apart (s : Receivers) : Prop where
  front   : ∀ d ∈ s.socket.head?, ∀ call, d.purpose = .ack call →
    s.main.call = some call ∧ s.listener ≠ .receiving
  order   : s.socket.Pairwise fun e d =>
    (∀ call, d.purpose ≠ .ack call) ∧ (d.purpose = .jobResult → listen e.data ≠ .raised)
  results : ∀ d ∈ s.socket, d.purpose = .jobResult →
    (s.main = .idle ∧ s.running ∧ s.listener ≠ .ended) ∧ Readable d.data

namespace Apart

lemma of_nil (h : s.socket = []) : s.Apart where
  front   := by simp [h]
  order   := by simp [h]
  results := by simp [h]

/-- Every reply that waits is in front. -/
lemma ack (hs : s.Apart) {d : Datagram} {call : Call} (hd : d ∈ s.socket)
    (hcall : d.purpose = .ack call) : s.main.call = some call ∧ s.listener ≠ .receiving := by
  obtain ⟨hfront, horder, -⟩ := hs
  cases hsocket : s.socket with
  | nil => simp [hsocket] at hd
  | cons e rest =>
    rw [hsocket] at hd horder hfront
    rcases List.mem_cons.mp hd with rfl | hd
    · exact hfront d rfl call hcall
    · exact absurd hcall (((List.pairwise_cons.mp horder).1 d hd).1 call)

lemma noAck (hs : s.Apart) (h : s.main.call = none ∨ s.listener = .receiving) : s.NoAck := by
  intro d hd call hcall
  obtain ⟨hmain, hlistener⟩ := hs.ack hd hcall
  rcases h with h | h
  · rw [h] at hmain
    cases hmain
  · exact hlistener h

lemma noResult (hs : s.Apart) (h : s.main ≠ .idle) : s.NoResult := by
  intro d hd hresult
  exact h (hs.results d hd hresult).1.1

/-- A step that leaves the socket as it is. -/
lemma keep (hs : s.Apart) (hsocket : t.socket = s.socket)
    (hfront : s.NoAck ∨ t.main.call = s.main.call ∧ t.listener = s.listener)
    (hresults : s.NoResult ∨ t.main = s.main ∧ t.running = s.running ∧ t.listener ≠ .ended) :
    t.Apart := by
  refine ⟨?_, ?_, ?_⟩
  · intro d hd call hcall
    rw [hsocket] at hd
    rcases hfront with hnone | ⟨hmain, hlistener⟩
    · exact absurd hcall (hnone d (List.mem_of_mem_head? hd) call)
    · rw [hmain, hlistener]
      exact hs.front d hd call hcall
  · rw [hsocket]
    exact hs.order
  · intro d hd hresult
    rw [hsocket] at hd
    rcases hresults with hnone | ⟨hmain, hrunning, hlistener⟩
    · exact absurd hresult (hnone d hd)
    · obtain ⟨⟨hidle, hruns, -⟩, hreadable⟩ := hs.results d hd hresult
      rw [hmain, hrunning]
      exact ⟨⟨hidle, hruns, hlistener⟩, hreadable⟩

/-- A step that takes the datagram in front. -/
lemma pop {d : Datagram} {rest : List Datagram} (hs : s.Apart) (hsocket : s.socket = d :: rest)
    (hrest : t.socket = rest)
    (hresults : s.NoResult ∨ t.main = s.main ∧ t.running = s.running ∧
      (s.running = true → listen d.data ≠ .raised → t.listener ≠ .ended)) : t.Apart := by
  obtain ⟨-, horder, hwaiting⟩ := hs
  rw [hsocket] at horder hwaiting
  obtain ⟨hbehind, hpairwise⟩ := List.pairwise_cons.mp horder
  refine ⟨?_, hrest ▸ hpairwise, ?_⟩
  · intro e he call hcall
    rw [hrest] at he
    exact absurd hcall ((hbehind e (List.mem_of_mem_head? he)).1 call)
  · intro e he hresult
    rw [hrest] at he
    have hmem : e ∈ d :: rest := List.mem_cons_of_mem _ he
    rcases hresults with hnone | ⟨hmain, hrunning, hlistener⟩
    · exact absurd hresult (hnone e (hsocket ▸ hmem))
    · obtain ⟨⟨hidle, hruns, -⟩, hreadable⟩ := hwaiting e hmem hresult
      rw [hmain, hrunning]
      exact ⟨⟨hidle, hruns, hlistener hruns ((hbehind e he).2 hresult)⟩, hreadable⟩

/-- Something else than a reply joins at the end. -/
lemma concat {d : Datagram} (hs : s.Apart) (hack : ∀ call, d.purpose ≠ .ack call)
    (hresult : d.purpose = .jobResult → (s.main = .idle ∧ s.running ∧ s.listener ≠ .ended) ∧
      Readable d.data ∧ ∀ e ∈ s.socket, listen e.data ≠ .raised) :
    Apart { s with socket := s.socket ++ [d] } := by
  refine ⟨?_, ?_, ?_⟩
  · intro e he call hcall
    rcases List.mem_append.mp (List.mem_of_mem_head? he) with he | he
    · exact hs.ack he hcall
    · rw [List.mem_singleton.mp he] at hcall
      exact absurd hcall (hack call)
  · refine List.pairwise_append.mpr ⟨hs.order, List.pairwise_singleton _ _, ?_⟩
    intro e he d' hd'
    rw [List.mem_singleton.mp hd']
    exact ⟨hack, fun h => (hresult h).2.2 e he⟩
  · refine List.forall_mem_append.mpr ⟨hs.results, ?_⟩
    intro d' hd'
    rw [List.mem_singleton.mp hd']
    intro h
    exact ⟨(hresult h).1, (hresult h).2.1⟩

lemma arrive {d : Datagram} (hs : s.Apart) (hC : s.InTurn (.arrive d)) :
    Apart { s with socket := s.socket ++ [d] } := by
  have harrives : s.ArrivesInTurn d.data d.purpose := hC
  cases hpurpose : d.purpose with
  | ack call =>
    rw [hpurpose] at harrives
    obtain ⟨hmain, hsocket, hlistener⟩ := harrives
    rw [hsocket]
    refine ⟨?_, List.pairwise_singleton _ _, ?_⟩
    · rintro _ ⟨⟩ other hother
      rw [hpurpose] at hother
      cases hother
      exact ⟨hmain, hlistener⟩
    · intro e he hresult
      rw [List.mem_singleton.mp he, hpurpose] at hresult
      cases hresult
  | jobResult =>
    rw [hpurpose] at harrives
    exact hs.concat (by simp [hpurpose]) fun _ => harrives
  | other => exact hs.concat (by simp [hpurpose]) (by simp [hpurpose])

lemma step (hs : s.Apart) (hC : s.InTurn a) (h : Receivers.step s a = some t) : t.Apart := by
  cases a with
  | call msgId =>
    simp only [Receivers.step] at h
    split_ifs at h with hidle
    cases h
    exact hs.keep rfl (.inl (hs.noAck (.inl (by rw [hidle.1]; rfl)))) (.inl hC)
  | sendto success =>
    simp only [Receivers.step] at h
    split at h
    · rename_i call attempt hmain
      have hnone : s.NoResult := hs.noResult (by simp [hmain])
      split_ifs at h with hsuccess <;> cases h
      · exact hs.keep rfl (.inr ⟨by rw [hmain]; rfl, rfl⟩) (.inl hnone)
      · rw [Bool.not_eq_true] at hsuccess
        subst hsuccess
        exact hs.keep rfl (.inl hC) (.inl hnone)
    · cases h
  | mainRecv result =>
    simp only [Receivers.step] at h
    split at h
    case h_1 call attempt d rest hmain hsocket =>
      cases h
      exact hs.pop hsocket rfl (.inl (hs.noResult (by simp [hmain])))
    case h_2 call attempt hmain hsocket =>
      cases h
      exact of_nil hsocket
    case h_3 call attempt hmain =>
      cases h
      exact hs.keep rfl (.inl hC) (.inl (hs.noResult (by simp [hmain])))
    case h_4 => cases h
  | startListener =>
    simp only [Receivers.step] at h
    split_ifs at h with hidle
    cases h
    have hnone := hs.noAck (.inl (by rw [hidle.1]; rfl))
    by_cases hruns : s.running = true
    · exact hs.keep rfl (.inl hnone) (.inr ⟨rfl, rfl, by simp [listenerLoop, hruns]⟩)
    · have hempty : s.NoResult := fun d hd hresult => hruns (hs.results d hd hresult).1.2.1
      exact hs.keep rfl (.inl hnone) (.inl hempty)
  | listenerRecv result =>
    simp only [Receivers.step] at h
    split at h
    case h_1 d rest hlistener hsocket =>
      cases h
      refine hs.pop hsocket rfl (.inr ⟨rfl, rfl, fun hruns hquiet => ?_⟩)
      simp [hquiet, listenerLoop, hruns]
    case h_2 hlistener hsocket =>
      cases h
      exact of_nil hsocket
    case h_3 hlistener =>
      cases h
      exact hs.keep rfl (.inl (hs.noAck (.inr hlistener))) (.inl hC)
    case h_4 => cases h
  | shutdown =>
    simp only [Receivers.step] at h
    split_ifs at h with hidle
    cases h
    exact hs.keep rfl (.inr ⟨rfl, rfl⟩) (.inl hC)
  | arrive d =>
    have ht : t = { s with socket := s.socket ++ [d] } := by
      simp only [Receivers.step] at h
      split at h
      · split_ifs at h
        exact (Option.some.inj h).symm
      · exact (Option.some.inj h).symm
    rw [ht]
    exact hs.arrive hC

lemma canTake (hs : s.Apart) : ∀ d ∈ s.socket, s.CanTake d := by
  intro d hd
  unfold CanTake
  cases hpurpose : d.purpose with
  | ack call => exact (hs.ack hd hpurpose).1
  | jobResult => exact (hs.results d hd hpurpose).1.2.2
  | other => trivial

/-- Each datagram goes to its thread. -/
lemma proper (hs : s.Apart) (h : Receivers.step s a = some t) :
    ∀ delivery ∈ s.deliveries a, delivery.Proper := by
  cases SocketRule.of_step h with
  | mainTakes call attempt d rest hmain hsocket =>
    simp only [deliveries, hmain, hsocket, List.mem_singleton, forall_eq, Delivery.Proper]
    cases hpurpose : d.purpose with
    | ack other =>
      obtain ⟨hcall, -⟩ := hs.front d (by rw [hsocket]; rfl) other hpurpose
      rw [hmain] at hcall
      cases hcall
      rfl
    | jobResult =>
      exact absurd hpurpose (hs.noResult (by simp [hmain]) d (by simp [hsocket]))
    | other => trivial
  | listenerTakes d rest hlistener hsocket =>
    simp only [deliveries, hlistener, hsocket, List.mem_singleton, forall_eq, Delivery.Proper]
    cases hpurpose : d.purpose with
    | ack call =>
      exact absurd hpurpose (hs.noAck (.inr hlistener) d (by simp [hsocket]) call)
    | jobResult =>
      obtain ⟨-, hreadable⟩ := hs.results d (by simp [hsocket]) hpurpose
      simpa using (exists_listen_eq_handled_iff d.data).mpr hreadable
    | other => trivial
  | arrives d => simp [deliveries]
  | keeps _ _ hsocket hdeliveries harrivals => simp [hdeliveries]

end Apart

/-! ### Main result -/

/-- If replies and job results arrive in turn, every datagram that arrived was taken or waits, each
that was taken went to its thread, and each that waits can still do so. -/
theorem receivers_take_own (h : run step init as = some s) (hC : Along step InTurn init as) :
    trace step arrivals init as = (trace step deliveries init as).map (·.datagram) ++ s.socket ∧
      (∀ delivery ∈ trace step deliveries init as, delivery.Proper) ∧
        ∀ d ∈ s.socket, s.CanTake d := by
  have hinv : s.Apart ∧ ∀ delivery ∈ trace step deliveries init as, delivery.Proper := by
    refine along_trace_invariant
      (I := fun s (events : List Delivery) => s.Apart ∧ ∀ delivery ∈ events, delivery.Proper)
      ⟨.of_nil rfl, by simp⟩ ?_ hC h
    rintro s a t events ⟨hs, hevents⟩ hC h
    exact ⟨hs.step hC h, List.forall_mem_append.mpr ⟨hevents, hs.proper h⟩⟩
  exact ⟨trace_arrivals h, hinv.2, hinv.1.canTake⟩

/-- The first call gets its reply after a retry; with the listener started, another datagram is
dropped and a job result handled. -/
def registeredRun : List ReceiverAction :=
  [.call 5, .sendto true, .mainRecv .timeout, .sendto true, .arrive ⟨[2], .ack ⟨0, 5⟩⟩,
    .mainRecv .datagram, .startListener, .arrive ⟨[4], .other⟩,
    .arrive ⟨7 :: List.replicate 26 0, .jobResult⟩, .listenerRecv .datagram,
    .listenerRecv .datagram, .listenerRecv .timeout]

theorem receivers_take_own_registered :
    ∃ s, run step init registeredRun = some s ∧
      (trace step deliveries init registeredRun).map (·.fate)
        = [.returned ⟨0, 5⟩, .listened .ignored, .listened (.handled ⟨0, 0, []⟩)] ∧
      trace step arrivals init registeredRun
        = (trace step deliveries init registeredRun).map (·.datagram) ++ s.socket ∧
      (∀ delivery ∈ trace step deliveries init registeredRun, delivery.Proper) ∧
        ∀ d ∈ s.socket, s.CanTake d :=
  ⟨⟨[], .idle, .receiving, true, 1, [⟨0, 5⟩, ⟨0, 5⟩]⟩, by decide, by decide +kernel,
    receivers_take_own (by decide) (by decide +kernel)⟩

/-- The listener takes the reply to the second call. -/
theorem not_receivers_take_own : ¬ ∀ as s, run step init as = some s →
    trace step arrivals init as = (trace step deliveries init as).map (·.datagram) ++ s.socket ∧
      (∀ delivery ∈ trace step deliveries init as, delivery.Proper) ∧
        ∀ d ∈ s.socket, s.CanTake d := by
  intro h
  have hrun : run step init [.call 5, .sendto true, .arrive ⟨[2], .ack ⟨0, 5⟩⟩,
      .mainRecv .datagram, .startListener, .call 9, .sendto true, .arrive ⟨[4], .ack ⟨1, 9⟩⟩,
      .listenerRecv .datagram] =
        some ⟨[], .receiving ⟨1, 9⟩ 0, .receiving, true, 2, [⟨1, 9⟩, ⟨0, 5⟩]⟩ := by
    decide
  have hproper := (h _ _ hrun).2.1 ⟨⟨[4], .ack ⟨1, 9⟩⟩, .listened .ignored⟩ (by decide)
  cases hproper

end Receivers

end PyClient

end Pcd
