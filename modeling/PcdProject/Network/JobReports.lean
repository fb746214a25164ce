import PcdProject.Client.JobOutcome
import PcdProject.Server.LogAppend

/-!
# Reports of success

`submit_job` takes any JOB_RESULT for the one of its own job, so that the success of a job can be
reported by the call for another job. The server with one client and the network between them: no
more calls report a success than commands of jobs from the address of the client ended with 0,
whatever else the server receives, and whatever the network loses, delays or reorders.
-/

namespace Pcd

open CLayout Transition

/-! ### Reported successes -/

/-- A JOB_RESULT with `STATUS_OK`. -/
def Reply.isSuccess : Reply → Bool
  | .jobResult _ .ok _ => true
  | _                  => false

lemma Reply.isResult_of_isSuccess {reply : Reply} (h : reply.isSuccess = true) :
    reply.isResult = true := by
  cases reply <;> first | rfl | cases h

/-! ### Successes in the ledger -/

namespace Ledger

/-- A job that came from the address and whose command ended with 0. -/
def Succeeded (l : Ledger) (addr : SockAddr) (k : ℕ) : Prop :=
  ∃ c, l.created[k]? = some c ∧ c.clientAddr = addr ∧ .ran k c.command 0 ∈ l.notes

variable {l : Ledger} {k : ℕ} {dst : SockAddr} {reply : Reply}

lemma Answers.succeeded (h : l.Answers k dst reply) (hsuccess : reply.isSuccess = true) :
    l.Succeeded dst k := by
  obtain ⟨c, ret, hc, haddr, hran, rfl⟩ := h
  have hret : ret = 0 := by
    by_contra hne
    rw [exitStatus, if_neg hne] at hsuccess
    cases hsuccess
  exact ⟨c, hc, haddr, hret ▸ hran⟩

end Ledger

namespace AnswersInv

variable {s : Server} {l : Ledger}

/-- The successes that the server has reported to an address belong to different jobs that came
from there. -/
lemma succeeded (hl : LedgerInv s l) (h : AnswersInv s l) (addr : SockAddr) :
    ∃ ks : List ℕ, ks.Nodup ∧ (∀ k ∈ ks, l.Succeeded addr k) ∧
      s.outbox.countP (fun p => p.1 = addr ∧ p.2.isSuccess) = ks.length := by
  let good : ℕ × SockAddr × Reply → Bool := fun x => x.2.1 = addr ∧ x.2.2.isSuccess
  refine ⟨(l.answers.filter good).map Prod.fst, ?_, ?_, ?_⟩
  · have hsub : ((l.answers.filter good).map Prod.fst).Sublist l.answered := by
      rw [← l.map_fst_answers]
      exact List.filter_sublist.map _
    exact hl.nodup_answered.sublist hsub
  · intro k hk
    obtain ⟨x, hx, rfl⟩ := List.mem_map.mp hk
    obtain ⟨hmem, hgood⟩ := List.mem_filter.mp hx
    obtain ⟨haddr, hsuccess⟩ : x.2.1 = addr ∧ x.2.2.isSuccess = true := by simpa [good] using hgood
    exact haddr ▸ (h.answers x hmem).succeeded hsuccess
  · have hfilter : s.outbox.countP (fun p => p.1 = addr ∧ p.2.isSuccess)
        = (s.outbox.filter (·.2.isResult)).countP fun p => p.1 = addr ∧ p.2.isSuccess := by
      rw [List.countP_filter]
      apply List.countP_congr
      intro p _
      have hresult : p.2.isSuccess = true → p.2.isResult = true := Reply.isResult_of_isSuccess
      simp only [Bool.and_eq_true, decide_eq_true_eq]
      tauto
    rw [hfilter, h.outbox, List.countP_map, List.length_map, List.countP_eq_length_filter]
    rfl

end AnswersInv

/-! ### The datagrams that the client takes -/

namespace SubmitCall

/-- The call returned a job id. -/
def succeeded (call : SubmitCall) : Bool :=
  match call.phase with
  | .returned value => value ≠ 0
  | _               => false

variable {call call' : SubmitCall} {a : SubmitAction}

lemma succeeded_moveUpload (call : SubmitCall) (i : ℕ) (upload : UploadCall)
    (phase : UploadPhase) : (call.moveUpload i upload phase).succeeded = false := by
  cases phase <;> rfl

/-- Only a datagram in the wait for a JOB_RESULT makes a call return a job id. -/
lemma takesResult_of_succeeded (h : SubmitRule call a call') (hsucceeded : call'.succeeded = true) :
    ∃ d, a = .recv d ∧ call.takesResult d = true := by
  cases h with
  | result d hphase haccept => exact ⟨d, rfl, by simp [takesResult, hphase, haccept]⟩
  | endFiles i fileSize malloc pad =>
    unfold endFiles at hsucceeded
    split_ifs at hsucceeded <;> simp [succeeded] at hsucceeded
  | upload | uploadAnswer => simp [succeeded_moveUpload] at hsucceeded
  | ignore d hphase => simp [succeeded, hphase] at hsucceeded
  | file | startUpload | ack | reject | timeout => simp [succeeded] at hsucceeded

end SubmitCall

lemma take_terminate (fs : List Field) (i : ℕ) (buffer : Bytes) :
    (terminate fs i buffer).take (sizeof fs) = buffer.take (sizeof fs) := by
  simp only [terminate]
  split_ifs <;> exact List.take_set_of_le (by omega)

lemma headD_recvfrom {d : Bytes} (buffer : Bytes) (hd : 0 < d.length) :
    (recvfrom d buffer).headD 0 = d.headD 0 := by
  cases d with
  | nil => cases hd
  | cons b d => rfl

lemma Reply.isResult_of_headD {reply : Reply} {unset : Unset}
    (h : (reply.datagram unset).headD 0 = MessageType.jobResult.code) : reply.isResult = true := by
  cases reply with
  | jobResult => rfl
  | clientIdAck messageId clientId =>
    change MessageType.clientIdAck.code = _ at h
    cases h
  | jobAck messageId jobId status msg =>
    change MessageType.jobAck.code = _ at h
    cases h
  | uploadAck messageId nameLen status ipAddress tcpPort filename =>
    change MessageType.uploadAck.code = _ at h
    cases h
  | downloadAck messageId status fileSize nameLen filename =>
    change MessageType.downloadAck.code = _ at h
    cases h
  | kicked =>
    change UInt8.ofNat 'Y'.toNat = _ at h
    cases h

/-- The status is read from the datagram, not from what was in the buffer before. -/
lemma readU8_result (d buffer : Bytes) (hd : sizeof JobResult.layout ≤ d.length) :
    readU8 JobResult.layout 4 (terminate JobResult.layout 5 (recvfrom d buffer))
      = readU8 JobResult.layout 4 d := by
  have hsize : sizeof JobResult.layout ≤ CLIENT_BUFFER_SIZE := by decide
  have htake : (recvfrom d buffer).take (sizeof JobResult.layout)
      = d.take (sizeof JobResult.layout) := by
    rw [recvfrom, List.take_append_of_le_length (by simp; omega), List.take_take,
      min_eq_left hsize]
  have hslice := slice_congr JobResult.layout (by decide) le_rfl
    ((take_terminate JobResult.layout 5 (recvfrom d buffer)).trans htake) 4
  rw [readU8, readU8, hslice]

/-- Of the replies of the server, the wait for a JOB_RESULT takes only reports of success. -/
lemma isSuccess_of_takesResult {call : SubmitCall} {reply : Reply} {unset : Unset}
    (h : call.takesResult (reply.datagram unset) = true) : reply.isSuccess = true := by
  have hverdict : resultVerdict (min (reply.datagram unset).length CLIENT_BUFFER_SIZE)
      (recvfrom (reply.datagram unset) call.respBuffer) = .accept := by
    cases hphase : call.phase <;> simp_all [SubmitCall.takesResult, SubmitCall.verdict]
  unfold resultVerdict at hverdict
  split_ifs at hverdict with htype hstatus
  obtain ⟨hpos, hhead⟩ := htype
  rw [headD_recvfrom _ (by omega)] at hhead
  have hresult : reply.isResult = true := Reply.isResult_of_headD hhead
  cases reply with
  | jobResult jobId status msg =>
    let reply : Reply := .jobResult jobId status msg
    have hslice : slice JobResult.layout 4 (reply.datagram unset) = [status.code] :=
      reply.slice_datagram unset (i := 4) (show 4 < JobResult.layout.length by decide)
    rw [readU8_result _ _ (reply.sizeof_le_length_datagram unset), readU8, hslice] at hstatus
    cases status with
    | ok => rfl
    | error | invalidRequest | jobExists | uploadLimit | fileNotFound => cases hstatus
  | _ => cases hresult

/-! ### The system -/

/-- The server, a client, and the replies on their way to the address of the client. -/
structure JobSystem where
  server : Server
  client : JobClient
  toClient : List Reply

/-- A reply on its way is delivered, lost or duplicated. -/
inductive JobAction where
  | server (a : Action)
  | client (a : SubmitAction)
  | deliver (k : ℕ) (unset : Unset)
  | lose (k : ℕ)
  | copy (k : ℕ)

namespace JobSystem

def init (dir : Bytes) (addr : SockAddr) (clientId : ClientId) : JobSystem :=
  ⟨.init dir, .init addr clientId, []⟩

/-- What the server sends to the client in a step from `s` to `t`. -/
def sentTo (addr : SockAddr) (s t : Server) : List Reply :=
  ((t.outbox.drop s.outbox.length).filter (·.1 = addr)).map Prod.snd

/-- What the server receives, from whom ever, is part of its steps. The client receives what is on
its way to it. -/
def step (s : JobSystem) : JobAction → Option JobSystem
  | .server a =>
    (s.server.step a).map fun t =>
      { s with server := t, toClient := s.toClient ++ sentTo s.client.addr s.server t }
  | .client a =>
    match a with
    | .recv _ => none
    | _       => (s.client.step a).map fun c => { s with client := c }
  | .deliver k unset =>
    (s.toClient[k]?).bind fun reply =>
      (s.client.step (.recv (reply.datagram unset))).map fun c =>
        { s with client := c, toClient := s.toClient.eraseIdx k }
  | .lose k => some { s with toClient := s.toClient.eraseIdx k }
  | .copy k => (s.toClient[k]?).map fun reply => { s with toClient := s.toClient ++ [reply] }

/-- The steps of the server in a step of the whole. -/
def serverActions (_ : JobSystem) : JobAction → List Action
  | .server a => [a]
  | _         => []

/-- The reports of success that the network duplicates. -/
def copied (s : JobSystem) : JobAction → List Reply
  | .copy k => (s.toClient[k]?).toList.filter Reply.isSuccess
  | _       => []

/-- The ledger of the server in a run of the whole. -/
def ledgerOfRun (dir : Bytes) (addr : SockAddr) (clientId : ClientId) (as : List JobAction) :
    Ledger :=
  .ofRun dir (trace step serverActions (.init dir addr clientId) as)

/-- How many calls of the client returned a job id. -/
def reported (s : JobSystem) : ℕ := s.client.calls.countP SubmitCall.succeeded

/-- How many reports of success are on their way. -/
def inFlight (s : JobSystem) : ℕ := s.toClient.countP Reply.isSuccess

/-- How many reports of success the server has sent to the client. -/
def sent (s : JobSystem) : ℕ :=
  s.server.outbox.countP fun p => p.1 = s.client.addr ∧ p.2.isSuccess

end JobSystem

/-! ### The steps -/

namespace JobClient

variable {s t : JobClient} {a : SubmitAction}

lemma addr_of_step (h : s.step a = some t) : t.addr = s.addr := by
  unfold step at h
  split at h
  · split_ifs at h
    cases h
    unfold submitJob
    grind
  · unfold nextFile at h
    grind
  · obtain ⟨x, -, rfl⟩ := Option.map_eq_some_iff.mp h
    rfl
  · obtain ⟨x, -, rfl⟩ := Option.map_eq_some_iff.mp h
    rfl
  · obtain ⟨x, -, rfl⟩ := Option.map_eq_some_iff.mp h
    rfl
  · obtain ⟨x, -, rfl⟩ := Option.map_eq_some_iff.mp h
    rfl
  · cases h

/-- A step adds no call that returned a job id, but for one that takes a report of success. -/
lemma succeeded_of_step (h : s.step a = some t) :
    t.calls.countP SubmitCall.succeeded ≤ s.calls.countP SubmitCall.succeeded ∨
      (∃ d call, a = .recv d ∧ SubmitCall.takesResult call d = true) ∧
        t.calls.countP SubmitCall.succeeded ≤ s.calls.countP SubmitCall.succeeded + 1 := by
  cases StepRule.of_step h with
  | submit call hphase hcalls =>
    have hnew : call.succeeded = false := by
      rcases hphase with hphase | hphase <;> simp [SubmitCall.succeeded, hphase]
    refine .inl ?_
    rw [hcalls, List.countP_cons_of_neg (by simp [hnew])]
  | move call call' past hrule hcalls hcalls' =>
    rw [hcalls, hcalls']
    by_cases hsucceeded : call'.succeeded = true
    · obtain ⟨d, rfl, htakes⟩ := SubmitCall.takesResult_of_succeeded hrule hsucceeded
      refine .inr ⟨⟨d, call, rfl, htakes⟩, ?_⟩
      simp only [List.countP_cons]
      split_ifs <;> omega
    · refine .inl ?_
      simp only [List.countP_cons, if_neg hsucceeded]
      omega

end JobClient

namespace JobSystem

variable {s t : JobSystem} {a : JobAction} {k : ℕ} {reply : Reply}

lemma of_client {a : SubmitAction} (h : s.step (.client a) = some t) :
    ∃ c, s.client.step a = some c ∧ (∀ d, a ≠ .recv d) ∧ t = { s with client := c } := by
  cases a with
  | recv d => cases h
  | submit | nextFile | uploadSend | transfer | timeout =>
    obtain ⟨c, hc, rfl⟩ := Option.map_eq_some_iff.mp h
    exact ⟨c, hc, by simp, rfl⟩

lemma countP_eraseIdx (hk : s.toClient[k]? = some reply) :
    (s.toClient.eraseIdx k).countP Reply.isSuccess + (if reply.isSuccess then 1 else 0)
      = s.inFlight := by
  obtain ⟨hlt, rfl⟩ := List.getElem?_eq_some_iff.mp hk
  rw [inFlight, ← (List.getElem_cons_eraseIdx_perm hlt).countP_eq, List.countP_cons]

lemma countP_eraseIdx_le (s : JobSystem) (k : ℕ) :
    (s.toClient.eraseIdx k).countP Reply.isSuccess ≤ s.inFlight :=
  (List.eraseIdx_sublist _ _).countP_le

/-- What the server sends is on its way. -/
lemma countP_sentTo {u v : Server} (addr : SockAddr) (h : ∃ out, v.outbox = u.outbox ++ out) :
    v.outbox.countP (fun p => p.1 = addr ∧ p.2.isSuccess)
      = u.outbox.countP (fun p => p.1 = addr ∧ p.2.isSuccess)
        + (sentTo addr u v).countP Reply.isSuccess := by
  obtain ⟨out, hout⟩ := h
  rw [sentTo, hout, List.countP_append, List.drop_left, List.countP_map, List.countP_filter]
  congr 1
  apply List.countP_congr
  simp [and_comm]

/-- Every report of success that was taken or is on its way was sent or duplicated. -/
def Balanced (s : JobSystem) (copies : List Reply) : Prop :=
  s.reported + s.inFlight ≤ s.sent + copies.length

lemma Balanced.step {copies : List Reply} (h : s.Balanced copies) (hstep : s.step a = some t) :
    t.Balanced (copies ++ s.copied a) := by
  unfold Balanced at h ⊢
  cases a with
  | server a =>
    obtain ⟨v, hv, rfl⟩ := Option.map_eq_some_iff.mp hstep
    obtain ⟨out, hout, -⟩ := Server.Sends.of_step hv
    have hsent := countP_sentTo s.client.addr ⟨out, hout⟩
    simp only [reported, inFlight, sent, copied, List.append_nil, List.countP_append] at h ⊢
    omega
  | client a =>
    obtain ⟨c, hc, hrecv, rfl⟩ := of_client hstep
    have haddr := JobClient.addr_of_step hc
    rcases JobClient.succeeded_of_step hc with hless | ⟨⟨d, call, rfl, -⟩, -⟩
    · simp only [reported, inFlight, sent, copied, haddr, List.append_nil] at h hless ⊢
      omega
    · exact absurd rfl (hrecv d)
  | deliver k unset =>
    obtain ⟨reply, hk, hstep⟩ := Option.bind_eq_some_iff.mp hstep
    obtain ⟨c, hc, rfl⟩ := Option.map_eq_some_iff.mp hstep
    have haddr := JobClient.addr_of_step hc
    have hless := countP_eraseIdx hk
    rcases JobClient.succeeded_of_step hc with hsame | ⟨⟨d, call, hd, htakes⟩, hmore⟩
    · simp only [reported, inFlight, sent, copied, haddr, List.append_nil] at h hless hsame ⊢
      omega
    · -- the report that the call takes is on its way no longer
      cases hd
      rw [isSuccess_of_takesResult htakes] at hless
      simp only [reported, inFlight, sent, copied, haddr, List.append_nil, if_true]
        at h hless hmore ⊢
      omega
  | lose k =>
    cases hstep
    have hless := s.countP_eraseIdx_le k
    simp only [reported, inFlight, sent, copied, List.append_nil] at h hless ⊢
    omega
  | copy k =>
    obtain ⟨reply, hk, rfl⟩ := Option.map_eq_some_iff.mp hstep
    simp only [reported, inFlight, sent, copied, hk, Option.toList_some, List.countP_append,
      List.length_append, List.countP_eq_length_filter (l := [reply])] at h ⊢
    omega

/-- The server moves as if it were alone. -/
lemma server_of_step (h : s.step a = some t) :
    run Server.step s.server (s.serverActions a) = some t.server := by
  cases a with
  | server a =>
    obtain ⟨v, hv, rfl⟩ := Option.map_eq_some_iff.mp h
    simp [serverActions, hv]
  | client a =>
    obtain ⟨c, -, -, rfl⟩ := of_client h
    rfl
  | deliver k unset =>
    obtain ⟨reply, -, h⟩ := Option.bind_eq_some_iff.mp h
    obtain ⟨c, -, rfl⟩ := Option.map_eq_some_iff.mp h
    rfl
  | lose k =>
    cases h
    rfl
  | copy k =>
    obtain ⟨reply, -, rfl⟩ := Option.map_eq_some_iff.mp h
    rfl

lemma addr_of_step (h : s.step a = some t) : t.client.addr = s.client.addr := by
  cases a with
  | server a =>
    obtain ⟨v, -, rfl⟩ := Option.map_eq_some_iff.mp h
    rfl
  | client a =>
    obtain ⟨c, hc, -, rfl⟩ := of_client h
    exact JobClient.addr_of_step hc
  | deliver k unset =>
    obtain ⟨reply, -, h⟩ := Option.bind_eq_some_iff.mp h
    obtain ⟨c, hc, rfl⟩ := Option.map_eq_some_iff.mp h
    exact JobClient.addr_of_step hc
  | lose k =>
    cases h
    rfl
  | copy k =>
    obtain ⟨reply, -, rfl⟩ := Option.map_eq_some_iff.mp h
    rfl

end JobSystem

/-! ### Main result -/

/-- In every run of the server with a client, the calls of `submit_job` that returned a job id are
no more than the jobs that came from the address of the client and whose commands ended with 0,
each of them counted once, and the reports of success that the network made two of. -/
theorem reported_successes {dir : Bytes} {addr : SockAddr} {clientId : ClientId}
    {as : List JobAction} {s : JobSystem}
    (h : run JobSystem.step (.init dir addr clientId) as = some s) :
    ∃ ks : List ℕ, ks.Nodup ∧
      (∀ k ∈ ks, (JobSystem.ledgerOfRun dir addr clientId as).Succeeded addr k) ∧
      s.reported ≤ ks.length
        + (trace JobSystem.step JobSystem.copied (.init dir addr clientId) as).length := by
  have hserver : run Server.step (.init dir)
      (trace JobSystem.step JobSystem.serverActions (.init dir addr clientId) as)
        = some s.server :=
    run_simulation (I := fun _ => True) JobSystem.server JobSystem.serverActions
      (fun _ _ _ _ _ => trivial) (fun _ _ _ _ hstep => JobSystem.server_of_step hstep) trivial h
  have haddr : s.client.addr = addr :=
    run_invariant (I := fun s : JobSystem => s.client.addr = addr)
      (fun _ _ _ hs hstep => (JobSystem.addr_of_step hstep).trans hs) rfl h
  have hbalanced : s.Balanced
      (trace JobSystem.step JobSystem.copied (.init dir addr clientId) as) := by
    refine along_trace_invariant (I := JobSystem.Balanced) (C := fun _ _ => True) ?_
      (fun _ _ _ _ hs _ hstep => hs.step hstep) (fun _ _ _ _ _ => trivial) h
    exact Nat.le_refl _
  obtain ⟨ks, hnodup, hsucceeded, hlength⟩ :=
    (AnswersInv.of_run hserver).succeeded (LedgerInv.of_run hserver) addr
  refine ⟨ks, hnodup, hsucceeded, ?_⟩
  rw [← hlength]
  simp only [JobSystem.Balanced, JobSystem.sent, haddr] at hbalanced
  omega

/-- The job of `processRun` and the call of `submit_job` for it. -/
def reportedRun : List JobAction :=
  let unset : Unset := ⟨0, 0, Vector.replicate 16 0⟩
  processRun.map .server ++ ((submitRun 7).take 1).map .client ++
    [.deliver 0 unset, .client (.nextFile (some 100) true 0), .client (.uploadSend true),
    .deliver 0 unset, .client (.transfer true), .client (.nextFile none true 0), .deliver 0 unset]

theorem reported_successes_reportedRun :
    ∃ (s : JobSystem) (ks : List ℕ),
      run JobSystem.step (.init [] ⟨1, 1⟩ (Vector.replicate 16 1)) reportedRun = some s ∧
      s.reported = 1 ∧ ks.Nodup ∧
      (∀ k ∈ ks, (JobSystem.ledgerOfRun [] ⟨1, 1⟩ (Vector.replicate 16 1) reportedRun).Succeeded
        ⟨1, 1⟩ k) ∧
      s.reported ≤ ks.length + (trace JobSystem.step JobSystem.copied
        (.init [] ⟨1, 1⟩ (Vector.replicate 16 1)) reportedRun).length := by
  obtain ⟨s, hs, hone⟩ := Option.map_eq_some_iff.mp
    (show (run JobSystem.step (.init [] ⟨1, 1⟩ (Vector.replicate 16 1)) reportedRun).map
      JobSystem.reported = some 1 by decide +kernel)
  obtain ⟨ks, hks⟩ := reported_successes hs
  exact ⟨s, ks, hs, hone, hks⟩

end Pcd
