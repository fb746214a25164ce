import PcdProject.Client.SubmitJob

/-!
# The outcome of a job

`submit_job` returns the job id only if the job succeeded: the server acknowledged the job and then
reported its success. Both are messages that carry the job id of the call.
-/

namespace Pcd

open CLayout Transition

/-! ### Messages about a job -/

/-- A message of the given type that reports `STATUS_OK` for the job, with the numbers of the fields
that hold the job id and the status. -/
def ReportsOk (fs : List Field) (type : MessageType) (idField statusField : ℕ) (jobId : UInt32)
    (d : Bytes) : Prop :=
  sizeof fs ≤ d.length ∧ d.headD 0 = type.code ∧ readU32 fs idField d = jobId ∧
    readU8 fs statusField d = StatusCode.ok.code

instance (fs : List Field) (type : MessageType) (idField statusField : ℕ) (jobId : UInt32)
    (d : Bytes) : Decidable (ReportsOk fs type idField statusField jobId d) :=
  inferInstanceAs (Decidable (_ ∧ _))

abbrev IsJobAck : UInt32 → Bytes → Prop := ReportsOk JobResponse.layout .jobAck 2 3

abbrev IsJobResult : UInt32 → Bytes → Prop := ReportsOk JobResult.layout .jobResult 3 4

lemma isJobAck_datagram (unset : Unset) (messageId jobId : UInt32) (msg : String) :
    IsJobAck jobId ((Reply.jobAck messageId jobId .ok msg).datagram unset) := by
  have hslice : ∀ i < 5, slice JobResponse.layout i _ = _ := fun i hi =>
    (Reply.jobAck messageId jobId .ok msg).slice_datagram unset hi
  refine ⟨(Reply.jobAck messageId jobId .ok msg).sizeof_le_length_datagram unset, rfl, ?_, ?_⟩
  · rw [readU32, hslice 2 (by decide)]
    exact UInt32.ofNat_leBytes jobId
  · rw [readU8, hslice 3 (by decide)]
    rfl

lemma isJobResult_datagram (unset : Unset) (jobId : UInt32) (msg : String) :
    IsJobResult jobId ((Reply.jobResult jobId .ok msg).datagram unset) := by
  have hslice : ∀ i < 6, slice JobResult.layout i _ = _ := fun i hi =>
    (Reply.jobResult jobId .ok msg).slice_datagram unset hi
  refine ⟨(Reply.jobResult jobId .ok msg).sizeof_le_length_datagram unset, rfl, ?_, ?_⟩
  · rw [readU32, hslice 3 (by decide)]
    exact UInt32.ofNat_leBytes jobId
  · rw [readU8, hslice 4 (by decide)]
    rfl

namespace SubmitCall

variable {call call' : SubmitCall} {a : SubmitAction}

/-- The client received a JOB_ACK for the job of the call during the call. -/
def Acknowledged (call : SubmitCall) : Prop := ∃ ack ∈ call.received, IsJobAck call.jobId ack

/-- The client received a JOB_ACK for the job of the call and afterwards a JOB_RESULT for it. -/
def Confirmed (call : SubmitCall) : Prop :=
  ∃ ack result, [ack, result].Sublist call.received ∧ IsJobAck call.jobId ack ∧
    IsJobResult call.jobId result

/-- The wait for a JOB_ACK ends with the datagram. -/
def takesAck (call : SubmitCall) (d : Bytes) : Bool :=
  match call.phase with
  | .ackWait => call.verdict d = .accept
  | _        => false

/-- The wait for a JOB_RESULT ends with the datagram, and the call returns the job id. -/
def takesResult (call : SubmitCall) (d : Bytes) : Bool :=
  match call.phase with
  | .resultWait => call.verdict d = .accept
  | _           => false

/-- What the call takes for a JOB_ACK or a JOB_RESULT is one for its own job. -/
def TakesOwn (call : SubmitCall) (d : Bytes) : Prop :=
  call.jobId ≠ 0 → (call.takesAck d → IsJobAck call.jobId d) ∧
    (call.takesResult d → IsJobResult call.jobId d)

instance (call : SubmitCall) (d : Bytes) : Decidable (call.TakesOwn d) :=
  inferInstanceAs (Decidable (_ → _))

/-- Behind the wait for a JOB_ACK the job is acknowledged; a call that returned is confirmed. -/
def Backed (call : SubmitCall) : Prop :=
  match call.phase with
  | .ackWait => True
  | .files _ | .uploading _ _ | .resultWait => call.jobId ≠ 0 → call.Acknowledged
  | .returned value => value ≠ 0 → call.Confirmed

lemma Acknowledged.of_received (h : call.Acknowledged) (hid : call'.jobId = call.jobId)
    (hreceived : call.received <+: call'.received) : call'.Acknowledged := by
  obtain ⟨ack, hmem, hack⟩ := h
  exact ⟨ack, hreceived.subset hmem, hid ▸ hack⟩

lemma Acknowledged.confirmed {d : Bytes} (h : call.Acknowledged)
    (hresult : IsJobResult call.jobId d) (hid : call'.jobId = call.jobId)
    (hreceived : call'.received = call.received ++ [d]) : call'.Confirmed := by
  obtain ⟨ack, hmem, hack⟩ := h
  refine ⟨ack, d, ?_, hid ▸ hack, hid ▸ hresult⟩
  rw [hreceived]
  exact (List.singleton_sublist.mpr hmem).append (List.Sublist.refl [d])

lemma Backed.moveUpload {i : ℕ} {upload : UploadCall} {phase : UploadPhase}
    (h : call.jobId ≠ 0 → call.Acknowledged) : (call.moveUpload i upload phase).Backed := by
  cases phase <;> exact h

lemma Backed.of_returned (hphase : call.phase = .returned 0) : call.Backed := by
  simp [Backed, hphase]

/-- A step in a call that takes nothing but messages for its own job keeps it backed. -/
lemma Backed.step (h : call.Backed) (hC : ∀ d, a = .recv d → call.TakesOwn d)
    (hrule : SubmitRule call a call') : call'.Backed := by
  have more : ∀ d, call.Acknowledged →
      Acknowledged { call with received := call.received ++ [d] } := by
    intro d hack
    exact hack.of_received rfl (List.prefix_append _ _)
  cases hrule with
  | endFiles i fileSize malloc pad hphase =>
    simp only [Backed, hphase] at h
    unfold endFiles
    split_ifs
    · exact h
    · exact .of_returned rfl
  | file i fileSize malloc pad success hphase =>
    simp only [Backed, hphase] at h
    exact h
  | startUpload i fileSize malloc pad upload hphase =>
    simp only [Backed, hphase] at h
    exact h
  | upload i upload a phase hphase =>
    simp only [Backed, hphase] at h
    exact .moveUpload h
  | uploadAnswer i attempt upload d hphase =>
    simp only [Backed, hphase] at h
    apply Backed.moveUpload
    intro hid
    exact more d (h hid)
  | ack d hphase haccept =>
    intro hid
    have hack := (hC d rfl hid).1 (by simp [takesAck, hphase, haccept])
    exact ⟨d, by simp, hack⟩
  | result d hphase haccept =>
    simp only [Backed, hphase] at h
    intro hid
    have hresult := (hC d rfl hid).2 (by simp [takesResult, hphase, haccept])
    exact (h hid).confirmed hresult rfl rfl
  | ignore d hphase =>
    simp only [Backed, hphase] at h ⊢
    intro hid
    exact (h hid).of_received rfl (List.prefix_append _ _)
  | reject d => exact .of_returned rfl
  | timeout => exact .of_returned rfl

end SubmitCall

/-- The datagram that a step receives. -/
def SubmitAction.datagram (a : SubmitAction) : Option Bytes :=
  match a with
  | .recv d => some d
  | _       => none

namespace JobClient

/-- If the call in progress receives a datagram, it takes nothing but messages for its own job. -/
def TakesOwn (s : JobClient) (a : SubmitAction) : Prop :=
  ∀ call ∈ s.calls.head?, ∀ d ∈ a.datagram, call.TakesOwn d

instance (s : JobClient) (a : SubmitAction) : Decidable (s.TakesOwn a) :=
  inferInstanceAs (Decidable (∀ call ∈ s.calls.head?, ∀ d ∈ a.datagram, call.TakesOwn d))

lemma backed_step {s t : JobClient} {a : SubmitAction} (hs : ∀ call ∈ s.calls, call.Backed)
    (hC : s.TakesOwn a) (h : s.step a = some t) : ∀ call ∈ t.calls, call.Backed := by
  cases StepRule.of_step h with
  | submit call hphase hcalls =>
    have hcall : call.Backed := by
      rcases hphase with hphase | hphase <;> simp [SubmitCall.Backed, hphase]
    rw [hcalls]
    exact List.forall_mem_cons.mpr ⟨hcall, hs⟩
  | move call call' past hrule hcalls hcalls' =>
    rw [hcalls] at hs
    obtain ⟨hcall, hpast⟩ := List.forall_mem_cons.mp hs
    have hown : ∀ d, a = .recv d → call.TakesOwn d := by
      rintro d rfl
      exact hC call (by rw [hcalls]; rfl) d rfl
    rw [hcalls']
    exact List.forall_mem_cons.mpr ⟨hcall.step hown hrule, hpast⟩

end JobClient

/-- In every run in which the calls take nothing but messages for their own jobs, a call that
returns its job id received a JOB_ACK and afterwards a JOB_RESULT for it, both with `STATUS_OK`. -/
theorem returned_confirmed {addr : SockAddr} {clientId : ClientId} {as : List SubmitAction}
    {s : JobClient} (h : run JobClient.step (.init addr clientId) as = some s)
    (hC : Along JobClient.step JobClient.TakesOwn (.init addr clientId) as) :
    ∀ call ∈ s.calls, call.returned = some call.jobId → call.jobId ≠ 0 → call.Confirmed := by
  intro call hcall hreturned hid
  have hbacked : call.Backed :=
    along_invariant (I := fun s : JobClient => ∀ call ∈ s.calls, call.Backed)
      (fun _ _ _ hs hC h => JobClient.backed_step hs hC h) (by simp [JobClient.init]) hC h call hcall
  unfold SubmitCall.returned at hreturned
  split at hreturned
  · rename_i value hphase
    cases hreturned
    simp only [SubmitCall.Backed, hphase] at hbacked
    exact hbacked hid
  · cases hreturned

/-- A call of `submit_job` for job `j` with one file, up to the wait for its JOB_RESULT. -/
def submitRun (j : UInt32) : List SubmitAction :=
  let unset : Unset := ⟨0, 0, Vector.replicate 16 0⟩
  [.submit (some ⟨cstr "true", by decide⟩) (some [some ⟨cstr "a", by decide⟩]) j true true
      (List.replicate CLIENT_BUFFER_SIZE 0),
    .recv ((Reply.jobAck 2 j .ok "Job created successfully").datagram unset),
    .nextFile (some 100) true 0, .uploadSend true,
    .recv ((Reply.uploadAck 3 1 .ok 0 5556 (cstr "a")).datagram unset), .transfer true,
    .nextFile none true 0]

/-- The report of the server that job `j` succeeded. -/
def successOf (j : UInt32) : SubmitAction :=
  .recv ((Reply.jobResult j .ok "Job completed successfully").datagram
    ⟨0, 0, Vector.replicate 16 0⟩)

theorem returned_confirmed_submitRun :
    ∃ s call, run JobClient.step (.init ⟨1, 5000⟩ (Vector.replicate 16 1))
        (submitRun 11 ++ [.recv [], successOf 11]) = some s ∧
      s.calls = [call] ∧ call.returned = some 11 ∧ call.Confirmed := by
  obtain ⟨s, hs, hcall⟩ := Option.map_eq_some_iff.mp
    (show (run JobClient.step (.init ⟨1, 5000⟩ (Vector.replicate 16 1))
      (submitRun 11 ++ [.recv [], successOf 11])).map
        (fun s => s.calls.map fun call => (call.jobId, call.returned)) = some [(11, some 11)] by
      decide +kernel)
  obtain ⟨call, hcalls, hcall⟩ := List.map_eq_singleton_iff.mp hcall
  obtain ⟨hid, hreturned⟩ := Prod.mk.inj hcall
  refine ⟨s, call, hs, hcalls, hreturned, ?_⟩
  exact returned_confirmed hs (by decide +kernel) call (by simp [hcalls]) (hid ▸ hreturned)
    (by rw [hid]; decide)

/-- The call for job 11 times out; the JOB_RESULT of job 11 then arrives in the call for job 12,
which returns 12. -/
theorem not_confirmed_late :
    ¬ ∀ addr clientId as s, run JobClient.step (.init addr clientId) as = some s →
      ∀ call ∈ s.calls, call.returned = some call.jobId → call.jobId ≠ 0 → call.Confirmed := by
  intro h
  obtain ⟨s, hs, hcall⟩ := Option.map_eq_some_iff.mp
    (show (run JobClient.step (.init ⟨1, 5000⟩ (Vector.replicate 16 1))
      (submitRun 11 ++ [.timeout] ++ submitRun 12 ++ [successOf 11])).map
        (fun s => s.calls.map fun call => (call.jobId, call.returned,
          call.received.any fun d => IsJobResult 12 d)) =
            some [(12, some 12, false), (11, some 0, false)] by
      decide +kernel)
  cases hcalls : s.calls with
  | nil => simp [hcalls] at hcall
  | cons call past =>
    simp only [hcalls, List.map_cons, List.cons.injEq, Prod.mk.injEq] at hcall
    obtain ⟨⟨hid, hreturned, hnone⟩, -⟩ := hcall
    obtain ⟨ack, result, hsub, -, hresult⟩ := h _ _ _ s hs call (by simp [hcalls])
      (hid ▸ hreturned) (by rw [hid]; decide)
    have hmem : result ∈ call.received := hsub.subset (by simp)
    rw [List.any_eq_false] at hnone
    exact hnone result hmem (by simpa [hid] using hresult)

end Pcd
