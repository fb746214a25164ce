import Mathlib.Data.List.Perm.Basic
import PcdProject.Protocol.Requests
import PcdProject.Server.System
import PcdProject.Server.UploadGate

/-!
# Admission of uploads

The server refines the gate of the uploads, so that `active_uploads` counts the workers between
their pick and their finish and `max_uploads` stays in its range. The queue neither loses nor
duplicates a job.
-/

namespace Pcd

open Transition

/-- Between the pick and the finish. -/
def Worker.active : Worker → Bool
  | .waiting => false
  | _        => true

namespace Server

def activeWorkers (s : Server) : ℕ := s.workers.countP Worker.active

/-- The upload that a step inserts into the queue. -/
def enqueuedUploads (s : Server) (a : Action) : List UploadJob :=
  match s.clientThread, a with
  | .uploadEnqueue req name _, .client (.enqueue now) => [.create req name now]
  | _, _ => []

/-- The upload that a step takes from the queue. -/
def pickedUploads (s : Server) (a : Action) : List UploadJob :=
  match a with
  | .worker _ .pick => s.uploadQueue.take 1
  | _               => []

/-- The step does not lower the limit. -/
def KeepsLimit (s : Server) (a : Action) : Prop :=
  ∀ t, s.step a = some t → s.maxUploads ≤ t.maxUploads

/-! ### The gate -/

def gate (s : Server) : UploadGate where
  busy := s.workers.map Worker.active
  queued := s.uploadQueue.length
  active := s.activeUploads
  limit := s.maxUploads

/-- What a step does at the gate. -/
def gateAction (s : Server) (a : Action) : Option GateAction :=
  match s.clientThread, a with
  | _, .worker w .pick                            => some (.pick w)
  | _, .worker w .finish                          => some (.finish w)
  | _, .setMaxUploads n                           => some (.setLimit n)
  | .uploadEnqueue _ _ _, .client (.enqueue _)    => some .enqueue
  | _, _ => none

variable {s t : Server} {a : Action}

/-- A worker that stays busy does nothing at the gate. -/
lemma gate_busy {w : ℕ} {pc pc' : Worker} (hpc : s.workers[w]? = some pc)
    (hw : t.workers = s.workers.set w pc') (hact : pc.active = pc'.active)
    (hq : t.uploadQueue = s.uploadQueue) (ha : t.activeUploads = s.activeUploads)
    (hm : t.maxUploads = s.maxUploads) : s.gate = t.gate := by
  obtain ⟨hlt, rfl⟩ := List.getElem?_eq_some_iff.mp hpc
  have hset : (s.workers.map Worker.active).set w pc'.active = s.workers.map Worker.active := by
    rw [← hact, ← List.map_set, List.set_getElem_self]
  simp [gate, hw, hq, ha, hm, List.map_set, hset]

/-- Every step of the server is a step of the gate or none. -/
lemma gate_step (h : s.step a = some t) :
    run UploadGate.step s.gate (s.gateAction a).toList = some t.gate := by
  cases SystemRule.of_step h with
  | client a _ h =>
    cases h with
    | enqueueUpload req name src now hpc =>
      have hlen := (StableQueue.insert_perm UploadJob.priority
        (.create req name now) s.uploadQueue).length_eq
      simp [gateAction, hpc, gate, UploadGate.step, enqueueUpload, hlen]
    | enqueueDownload req name src now hpc => simp [gateAction, hpc, gate]
    | appendJob req cmd src now hpc hfree => simp [gateAction, gate]
    | move a pc out hquiet | clients a clients out hquiet =>
      cases a <;> simp_all [gateAction, gate, ClientAction.inserts]
  | worker w a _ h =>
    cases h with
    | pick job queue hpc hqueue hlt =>
      simp [gateAction, UploadGate.step, gate, setWorker, hpc, hqueue, hlt, List.map_set,
        Worker.active]
    | finish job hpc =>
      simp [gateAction, UploadGate.step, gate, setWorker, hpc, List.map_set, Worker.active]
    | lookup job pc hpc hfree hpc' =>
      rcases hpc' with rfl | rfl <;> exact congrArg some (gate_busy hpc rfl rfl rfl rfl rfl)
    | accept job conn backlog hpc | acceptFail job hpc | openFile job conn hpc
    | openFail job conn hpc | recv job conn remaining total received hpc
    | shortWrite job conn remaining total received written hpc
    | hangup job conn remaining total hpc | close job conn total hpc
    | update job remaining total now hpc =>
      exact congrArg some (gate_busy hpc rfl rfl rfl rfl rfl)
  | processing a _ h => cases h <;> rfl
  | download a _ h => cases h <;> rfl
  | limit n hn =>
    have hvalid : ¬ (n < 0 ∨ n > MAX_UPLOADS) := by omega
    simp [gateAction, UploadGate.step, gate, hvalid]
  | limitIgnored n hn => simp [gateAction, UploadGate.step, hn]
  | sweep | kick | connectUpload | connectDownload => rfl

end Server

/-! ### The queue -/

/-- What a step inserts and what was queued is what it takes and what is queued after it. -/
lemma uploadQueue_step {s t : Server} {a : Action} (h : s.step a = some t) :
    (s.uploadQueue ++ s.enqueuedUploads a).Perm (s.pickedUploads a ++ t.uploadQueue) := by
  cases SystemRule.of_step h with
  | client a _ h =>
    cases h with
    | enqueueUpload req name src now hpc =>
      simp only [Server.enqueuedUploads, hpc, Server.pickedUploads, List.nil_append]
      exact (List.perm_append_singleton _ _).trans (StableQueue.insert_perm _ _ _).symm
    | appendJob req cmd src now hpc hfree =>
      simp [Server.enqueuedUploads, Server.pickedUploads]
    | enqueueDownload req name src now hpc =>
      simp [Server.enqueuedUploads, Server.pickedUploads, hpc]
    | move a pc out hquiet | clients a clients out hquiet =>
      cases a <;> simp_all [Server.enqueuedUploads, Server.pickedUploads, ClientAction.inserts]
  | worker w a _ h =>
    cases h with
    | pick job queue hpc hqueue hlt =>
      simp [Server.enqueuedUploads, Server.pickedUploads, Server.setWorker, hqueue]
    | lookup | accept | acceptFail | openFile | openFail | recv | shortWrite | hangup | close
    | update | finish => simp [Server.enqueuedUploads, Server.pickedUploads, Server.setWorker]
  | processing a _ h => cases h <;> simp [Server.enqueuedUploads, Server.pickedUploads]
  | download a _ h => cases h <;> simp [Server.enqueuedUploads, Server.pickedUploads]
  | sweep | kick | limit | limitIgnored | connectUpload | connectDownload =>
    simp [Server.enqueuedUploads, Server.pickedUploads]

/-- Along a run, what was inserted is what was picked and what is still queued. -/
lemma uploadQueue_run {dir : Bytes} {as : List Action} {s : Server}
    (h : run Server.step (.init dir) as = some s) :
    (trace Server.step Server.enqueuedUploads (.init dir) as).Perm
      (trace Server.step Server.pickedUploads (.init dir) as ++ s.uploadQueue) := by
  refine run_induction
    (P := fun as s => (trace Server.step Server.enqueuedUploads (.init dir) as).Perm
      (trace Server.step Server.pickedUploads (.init dir) as ++ s.uploadQueue))
    (List.Perm.refl _) ?_ h
  intro as a t u hrun ha ih
  rw [trace_concat a hrun, trace_concat a hrun, List.append_assoc]
  refine (ih.append_right _).trans ?_
  rw [List.append_assoc]
  exact (uploadQueue_step ha).append_left _

/-! ### Main result -/

namespace Server

lemma gate_run {dir : Bytes} {as : List Action} {s : Server}
    (h : run step (.init dir) as = some s) : s.gate.Inv := by
  have hrun : run UploadGate.step (Server.init dir).gate
      (trace step (fun s a => (s.gateAction a).toList) (.init dir) as) = some s.gate :=
    run_simulation (I := fun _ => True) gate _ (fun _ _ _ _ _ => trivial)
      (fun _ _ _ _ h => gate_step h) trivial h
  exact UploadGate.Inv.run hrun

/-- A step that does not lower the limit keeps the counter below it. -/
lemma active_le_max_step {s t : Server} {a : Action} (hle : s.activeUploads ≤ s.maxUploads)
    (hkeep : s.KeepsLimit a) (h : s.step a = some t) : t.activeUploads ≤ t.maxUploads := by
  have hgate := gate_step h
  cases hact : s.gateAction a with
  | none =>
    rw [hact] at hgate
    obtain heq : s.gate = t.gate := Option.some.inj hgate
    have hle' : s.gate.active ≤ s.gate.limit := hle
    rwa [heq] at hle'
  | some b =>
    rw [hact, Option.toList_some, run_cons] at hgate
    obtain ⟨g, hg, hnil⟩ := Option.bind_eq_some_iff.mp hgate
    obtain rfl : g = t.gate := Option.some.inj hnil
    exact UploadGate.active_le_limit_step hle (hkeep t h) hg

end Server

/-- In every reachable state the counter is the number of workers between their pick and their
finish, and both it and the limit are in range. A worker picks only below the limit from a queue
that is not empty, each inserted upload is picked at most once, and the counter exceeds the limit
only after the limit was lowered. -/
theorem admission {dir : Bytes} {as : List Action} {s : Server}
    (h : run Server.step (.init dir) as = some s) :
    s.activeUploads = s.activeWorkers ∧
    (0 ≤ s.maxUploads ∧ s.maxUploads ≤ MAX_UPLOADS) ∧
    (0 ≤ s.activeUploads ∧ s.activeUploads ≤ MAX_UPLOADS) ∧
    (∀ w t, s.step (.worker w .pick) = some t →
      s.uploadQueue ≠ [] ∧ s.activeUploads < s.maxUploads) ∧
    (trace Server.step Server.enqueuedUploads (.init dir) as).Perm
      (trace Server.step Server.pickedUploads (.init dir) as ++ s.uploadQueue) ∧
    (∀ bs, Along Server.step Server.KeepsLimit s bs → s.activeUploads ≤ s.maxUploads →
      Always Server.step (fun t => t.activeUploads ≤ t.maxUploads) s bs) := by
  have hgate := Server.gate_run h
  have hcounter : s.activeUploads = s.activeWorkers := by
    have hbusy := hgate.counter
    simp only [Server.gate, List.countP_map] at hbusy
    exact hbusy
  refine ⟨hcounter, hgate.limit, ⟨hgate.active_nonneg, hgate.active_le⟩, ?_, uploadQueue_run h, ?_⟩
  · intro w t hstep
    cases WorkerRule.of_workerStep hstep with
    | pick job queue hpc hqueue hlt => exact ⟨by simp [hqueue], hlt⟩
  · intro bs hkeep hle
    exact always_of_along (fun _ _ _ hle hkeep h => Server.active_le_max_step hle hkeep h)
      (fun _ hle => hle) hle hkeep

/-- An upload request is received, its job is queued and worker 3 picks it. -/
def pickRun : List Action :=
  let req : UploadRequest := ⟨1, Vector.replicate 16 1, 7, 100, 1⟩
  [.client (.receive (fillBuffer (req.datagram 0 (cstr "a")) 0) 49 ⟨1, 1⟩ 0 (Vector.replicate 16 0)),
    .client (.enqueue 0), .worker 3 .pick]

theorem admission_pickRun :
    ∃ s, run Server.step (.init []) pickRun = some s ∧ s.activeUploads = s.activeWorkers := by
  obtain ⟨s, hs⟩ := Option.isSome_iff_exists.mp
    (show (run Server.step (.init []) pickRun).isSome = true by decide +kernel)
  exact ⟨s, hs, (admission hs).1⟩

end Pcd
