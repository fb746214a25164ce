import PcdProject.Server.Admission

/-!
# When an upload has its turn

The place of a job in `upload_queue` moves down with every job that a worker takes and up with
every job of higher priority that arrives later. So the number of jobs that are taken before it is
known, and no file of its size or larger that arrives later is among them.
-/

namespace Pcd

open Transition

/-! ### Priorities -/

/-- A larger file never has the higher priority, whatever is rounded. -/
lemma uploadPriority_le {m n : UInt64} (h : m ≤ n) : uploadPriority n ≤ uploadPriority m := by
  unfold uploadPriority
  split_ifs with hn hm hm
  · exact le_rfl
  · exact absurd (UInt64.le_antisymm (hn ▸ h) (UInt64.zero_le)) hm
  · exact le_top
  · have hm' : (0 : ℚ) < m.toNat := by
      have hne : m.toNat ≠ 0 := fun hzero => hm (UInt64.toNat_inj.mp hzero)
      exact_mod_cast Nat.pos_of_ne_zero hne
    have hmn : (m.toNat : ℚ) ≤ n.toNat := by exact_mod_cast UInt64.le_iff_toNat_le.mp h
    have hsize := BinaryFloat.round_mono (p := 53) (by norm_num) hm' hmn
    have hpos := BinaryFloat.round_pos (p := 53) (by norm_num) hm'
    refine WithTop.coe_le_coe.mpr (BinaryFloat.round_mono (by norm_num) ?_ ?_)
    · exact one_div_pos.mpr (hpos.trans_le hsize)
    · exact one_div_le_one_div_of_le hpos hsize

example : uploadPriority (2 ^ 63 + 1) = uploadPriority (2 ^ 63) := by decide +kernel

/-- A request overtakes another only if its file is smaller. -/
lemma fileSize_lt_of_priority_lt {req req' : UploadRequest} {name name' : Bytes} {now now' : ℤ}
    (h : (UploadJob.create req name now).priority < (UploadJob.create req' name' now').priority) :
    req'.fileSize < req.fileSize := by
  by_contra hle
  exact (uploadPriority_le (UInt64.not_lt.mp hle)).not_gt h

/-- The jobs of higher priority. -/
def overtaking (job : UploadJob) (jobs : List UploadJob) : ℕ :=
  jobs.countP fun other => job.priority < other.priority

lemma overtaking_append (job : UploadJob) (jobs jobs' : List UploadJob) :
    overtaking job (jobs ++ jobs') = overtaking job jobs + overtaking job jobs' :=
  List.countP_append

/-- In front come the jobs of highest priority. -/
def Server.SortedUploads (s : Server) : Prop :=
  s.uploadQueue.Pairwise fun a b => b.priority ≤ a.priority

section Turn

variable {s t : Server} {a : Action} {as bs : List Action} {job : UploadJob} {dir : Bytes} {p q : ℕ}

/-- A step inserts a job, takes the first one or leaves the queue as it is. -/
inductive TurnRule (s t : Server) (a : Action) : Prop where
  | keep (henqueued : s.enqueuedUploads a = []) (hpicked : s.pickedUploads a = [])
      (hqueue : t.uploadQueue = s.uploadQueue)
  | enqueue (new : UploadJob) (henqueued : s.enqueuedUploads a = [new])
      (hpicked : s.pickedUploads a = []) (hqueue : t.uploadQueue = enqueueUpload s.uploadQueue new)
  | pick (first : UploadJob) (henqueued : s.enqueuedUploads a = [])
      (hpicked : s.pickedUploads a = [first]) (hqueue : s.uploadQueue = first :: t.uploadQueue)

lemma TurnRule.of_step (h : s.step a = some t) : TurnRule s t a := by
  cases SystemRule.of_step h with
  | client a _ h =>
    cases h with
    | enqueueUpload req name src now hpc =>
      exact .enqueue _ (by simp [Server.enqueuedUploads, hpc]) rfl rfl
    | appendJob req cmd src now hpc hfree =>
      exact .keep (by simp [Server.enqueuedUploads]) rfl rfl
    | enqueueDownload req name src now hpc =>
      exact .keep (by simp [Server.enqueuedUploads, hpc]) rfl rfl
    | move a pc out hquiet | clients a clients out hquiet =>
      refine .keep ?_ rfl rfl
      cases a <;> simp_all [Server.enqueuedUploads, ClientAction.inserts]
  | worker w a _ h =>
    cases h with
    | pick first queue hpc hqueue hlt =>
      exact .pick first (by simp [Server.enqueuedUploads])
        (by simp [Server.pickedUploads, hqueue]) hqueue
    | lookup | accept | acceptFail | openFile | openFail | recv | shortWrite | hangup | close
    | update | finish =>
      exact .keep (by simp [Server.enqueuedUploads]) (by simp [Server.pickedUploads]) rfl
  | processing a _ h =>
    cases h <;> exact .keep (by simp [Server.enqueuedUploads]) (by simp [Server.pickedUploads]) rfl
  | download a _ h =>
    cases h <;> exact .keep (by simp [Server.enqueuedUploads]) (by simp [Server.pickedUploads]) rfl
  | sweep | kick | limit | limitIgnored | connectUpload | connectDownload =>
    exact .keep (by simp [Server.enqueuedUploads]) (by simp [Server.pickedUploads]) rfl

lemma Server.SortedUploads.step (hs : s.SortedUploads) (h : s.step a = some t) :
    t.SortedUploads := by
  unfold SortedUploads at hs ⊢
  cases TurnRule.of_step h with
  | keep henqueued hpicked hqueue => rwa [hqueue]
  | enqueue new henqueued hpicked hqueue =>
    rw [hqueue]
    have hsort : StableQueue.StableSort UploadJob.priority s.uploadQueue s.uploadQueue :=
      ⟨hs, fun _ => rfl⟩
    exact (hsort.insert new).sorted
  | pick first henqueued hpicked hqueue =>
    rw [hqueue] at hs
    exact hs.of_cons

lemma Server.sortedUploads_of_run (h : run Server.step (.init dir) as = some s) :
    s.SortedUploads := by
  have hinit : (Server.init dir).SortedUploads := List.Pairwise.nil
  exact run_invariant (fun _ _ _ hs h => hs.step h) hinit h

/-- The place of a job after a step that does not take it. -/
lemma place_step (hs : s.SortedUploads) (hjob : s.uploadQueue[q]? = some job)
    (h : s.step a = some t) :
    (s.pickedUploads a = [job] ∧ q = 0) ∨
      (s.pickedUploads a).length ≤ q + overtaking job (s.enqueuedUploads a) ∧
      t.uploadQueue[q + overtaking job (s.enqueuedUploads a)
        - (s.pickedUploads a).length]? = some job := by
  cases TurnRule.of_step h with
  | keep henqueued hpicked hqueue =>
    rw [henqueued, hpicked, hqueue]
    exact .inr ⟨Nat.zero_le _, hjob⟩
  | enqueue new henqueued hpicked hqueue =>
    have hone : overtaking job [new] = if job.priority < new.priority then 1 else 0 := by
      simp [overtaking, List.countP_singleton]
    rw [henqueued, hpicked, hqueue, hone]
    exact .inr ⟨Nat.zero_le _, StableQueue.getElem?_insert hs hjob new⟩
  | pick first henqueued hpicked hqueue =>
    rw [henqueued, hpicked]
    rw [hqueue] at hjob
    cases q with
    | zero =>
      obtain rfl : first = job := Option.some.inj hjob
      exact .inl ⟨rfl, rfl⟩
    | succ q => exact .inr ⟨Nat.succ_le_succ (Nat.zero_le _), hjob⟩

/-- A job at place `p` of the upload queue is taken when the number of the jobs that were taken
since then is `p` and the number of the jobs of higher priority that arrived since then; as long as
it waits, its place is what is missing to this number. This holds in every run, whatever the other
threads do and whatever the limit is set to. -/
theorem upload_turn (h : run Server.step (.init dir) as = some s)
    (hjob : s.uploadQueue[p]? = some job) (hrun : run Server.step s bs = some t) :
    (∃ pre a u, pre ++ [a] <+: bs ∧ run Server.step s pre = some u ∧
        u.pickedUploads a = [job] ∧
        (trace Server.step Server.pickedUploads s pre).length
          = p + overtaking job (trace Server.step Server.enqueuedUploads s pre)) ∨
      (trace Server.step Server.pickedUploads s bs).length
          ≤ p + overtaking job (trace Server.step Server.enqueuedUploads s bs) ∧
      t.uploadQueue[p + overtaking job (trace Server.step Server.enqueuedUploads s bs)
        - (trace Server.step Server.pickedUploads s bs).length]? = some job := by
  have hsorted := Server.sortedUploads_of_run h
  refine run_induction (P := fun bs t =>
    (∃ pre a u, pre ++ [a] <+: bs ∧ run Server.step s pre = some u ∧
        u.pickedUploads a = [job] ∧
        (trace Server.step Server.pickedUploads s pre).length
          = p + overtaking job (trace Server.step Server.enqueuedUploads s pre)) ∨
      (trace Server.step Server.pickedUploads s bs).length
          ≤ p + overtaking job (trace Server.step Server.enqueuedUploads s bs) ∧
      t.uploadQueue[p + overtaking job (trace Server.step Server.enqueuedUploads s bs)
        - (trace Server.step Server.pickedUploads s bs).length]? = some job)
    (.inr ⟨Nat.zero_le _, hjob⟩) ?_ hrun
  intro bs a u v hbs ha ih
  rcases ih with ⟨pre, b, w, hpre, hrest⟩ | ⟨hle, hplace⟩
  · exact .inl ⟨pre, b, w, hpre.trans (List.prefix_append _ _), hrest⟩
  · have hu : u.SortedUploads := run_invariant (fun _ _ _ hs h => hs.step h) hsorted hbs
    rcases place_step hu hplace ha with ⟨hpicked, hzero⟩ | ⟨hle', hplace'⟩
    · exact .inl ⟨bs, a, u, List.prefix_refl _, hbs, hpicked, by omega⟩
    · right
      rw [trace_concat a hbs, trace_concat a hbs, overtaking_append, List.length_append]
      refine ⟨by omega, ?_⟩
      rw [← hplace']
      congr 1
      omega

/-- The upload of `pickRun`, after the request of a smaller file. -/
theorem upload_turn_pickRun :
    let smaller : UploadRequest := ⟨2, Vector.replicate 16 1, 7, 50, 1⟩
    let bs : List Action :=
      [.client (.reply true),
        .client (.receive (fillBuffer (smaller.datagram 0 (cstr "b")) 0) 49 ⟨1, 1⟩ 0
          (Vector.replicate 16 0)),
        .client (.enqueue 0), .worker 3 .pick]
    ∃ s job t, run Server.step (.init []) (pickRun.take 2) = some s ∧
      s.uploadQueue[0]? = some job ∧ run Server.step s bs = some t ∧
      ((∃ pre a u, pre ++ [a] <+: bs ∧ run Server.step s pre = some u ∧
          u.pickedUploads a = [job] ∧
          (trace Server.step Server.pickedUploads s pre).length
            = 0 + overtaking job (trace Server.step Server.enqueuedUploads s pre)) ∨
        (trace Server.step Server.pickedUploads s bs).length
            ≤ 0 + overtaking job (trace Server.step Server.enqueuedUploads s bs) ∧
        t.uploadQueue[0 + overtaking job (trace Server.step Server.enqueuedUploads s bs)
          - (trace Server.step Server.pickedUploads s bs).length]? = some job) := by
  intro smaller bs
  obtain ⟨s, hs, hall⟩ := (Option.any_eq_true _ _).mp
    (show (run Server.step (.init []) (pickRun.take 2)).any (fun s =>
      s.uploadQueue[0]?.isSome = true ∧ (run Server.step s bs).isSome = true) = true by
      decide +kernel)
  obtain ⟨hjob, hrun⟩ := of_decide_eq_true hall
  obtain ⟨job, hjob⟩ := Option.isSome_iff_exists.mp hjob
  obtain ⟨t, ht⟩ := Option.isSome_iff_exists.mp hrun
  exact ⟨s, job, t, hs, hjob, ht, upload_turn hs hjob ht⟩

end Turn

end Pcd
