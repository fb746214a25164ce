import Mathlib.Data.List.DropRight
import PcdProject.Server.ReadyJobs

/-!
# The counter of received files

A final update of `process_upload` counts one file for the first pending job with its key and
changes nothing else. As long as the keys are distinct, the counter of a job is the number of the
final updates for its key since the job was created.
-/

namespace Pcd

open Transition

/-- What a step does to the counters. -/
inductive CounterEvent where
  | created (key : JobKey)
  | updated (key : JobKey)
  deriving DecidableEq

/-- `updated` is the event of a final update, whether it finds a job or not. -/
def Server.counterEvents (s : Server) (a : Action) : List CounterEvent :=
  match a with
  | .worker w (.update _) =>
    match s.workers[w]? with
    | some (.transferred job _ _) => [.updated job.key]
    | _ => []
  | a => (s.appendedKey a).toList.map .created

/-- The final updates for the key behind the last creation of a job with the key. -/
def updatesSince (key : JobKey) (events : List CounterEvent) : ℕ :=
  (events.rtakeWhile (· ≠ .created key)).count (.updated key)

lemma updatesSince_created (key key' : JobKey) (events : List CounterEvent) :
    updatesSince key (events ++ [.created key']) =
      if key' = key then 0 else updatesSince key events := by
  unfold updatesSince
  rw [List.rtakeWhile_concat]
  split_ifs <;> simp_all

lemma updatesSince_updated (key key' : JobKey) (events : List CounterEvent) :
    updatesSince key (events ++ [.updated key']) =
      updatesSince key events + if key' = key then 1 else 0 := by
  unfold updatesSince
  rw [List.rtakeWhile_concat, if_pos (by simp), List.count_append]
  congr 1
  split_ifs with hkey <;> simp [hkey]

/-- The first job with the key is counted, or there is none. -/
lemma countFile_cases (key : JobKey) (now : ℤ) (jobs : List PendingJob) :
    (∃ pre job post, jobs = pre ++ job :: post ∧ job.key = key ∧ (∀ other ∈ pre, other.key ≠ key) ∧
      countFile key now jobs = pre
        ++ { job with filesReceived := job.filesReceived + 1, lastUpdate := now } :: post) ∨
    (∀ other ∈ jobs, other.key ≠ key) ∧ countFile key now jobs = jobs := by
  induction jobs with
  | nil => exact .inr ⟨by simp, rfl⟩
  | cons job jobs ih =>
    rw [countFile_cons]
    by_cases hkey : job.key = key
    · rw [if_pos hkey]
      exact .inl ⟨[], job, jobs, rfl, hkey, by simp, rfl⟩
    · rw [if_neg hkey]
      rcases ih with ⟨pre, first, post, rfl, hfirst, hpre, heq⟩ | ⟨hnone, heq⟩
      · refine .inl ⟨job :: pre, first, post, rfl, hfirst, ?_, by rw [heq]; rfl⟩
        simpa [hkey] using hpre
      · exact .inr ⟨by simpa [hkey] using hnone, by rw [heq]⟩

/-! ### The steps with an event -/

section Steps

variable {s t : Server} {a : Action} {w : ℕ} {now : ℤ}

lemma step_update (h : s.step (.worker w (.update now)) = some t) :
    ∃ job remaining total, s.workers[w]? = some (.transferred job remaining total) ∧
      t.pendingJobs = countFile job.key now s.pendingJobs := by
  cases WorkerRule.of_workerStep h with
  | update job remaining total now hpc hfree => exact ⟨job, remaining, total, hpc, rfl⟩

lemma step_append (h : s.step (.client (.append true now)) = some t) :
    ∃ req cmd src, s.clientThread = .jobAppend req cmd src ∧
      t.pendingJobs = s.pendingJobs ++ [.create req cmd src now] := by
  cases ClientRule.of_clientStep h with
  | appendJob req cmd src now hpc hfree => exact ⟨req, cmd, src, hpc, rfl⟩
  | move _ pc out hquiet | clients _ clients out hquiet => cases hquiet

lemma counterEvents_eq_nil (hupdate : ∀ w now, a ≠ .worker w (.update now))
    (happend : ∀ now, a ≠ .client (.append true now)) : s.counterEvents a = [] := by
  unfold Server.counterEvents
  split
  · exact absurd rfl (hupdate _ _)
  · have hnone : s.appendedKey a = none := by
      unfold Server.appendedKey
      split
      · exact absurd rfl (happend _)
      · rfl
    rw [hnone]
    rfl

end Steps

/-! ### The invariant -/

structure CounterInv (s : Server) (events : List CounterEvent) : Prop where
  unique : s.UniqueKeys
  counts : ∀ job ∈ s.pendingJobs, job.filesReceived = updatesSince job.key events

namespace CounterInv

variable {s t : Server} {a : Action} {events : List CounterEvent}

lemma update {w : ℕ} {now : ℤ} (h : CounterInv s events)
    (hstep : s.step (.worker w (.update now)) = some t) : ∀ job ∈ t.pendingJobs,
      job.filesReceived = updatesSince job.key
        (events ++ s.counterEvents (.worker w (.update now))) := by
  obtain ⟨upload, remaining, total, hpc, hjobs⟩ := step_update hstep
  have hevents : s.counterEvents (.worker w (.update now)) = [.updated upload.key] := by
    simp [Server.counterEvents, hpc]
  have other : ∀ job ∈ s.pendingJobs, job.key ≠ upload.key →
      job.filesReceived = updatesSince job.key (events ++ [.updated upload.key]) := by
    intro job hjob hkey
    rw [updatesSince_updated, if_neg (Ne.symm hkey)]
    exact h.counts job hjob
  rw [hevents, hjobs]
  rcases countFile_cases upload.key now s.pendingJobs with
    ⟨pre, first, post, hsplit, hfirst, hpre, hcount⟩ | ⟨hnone, hcount⟩
  · have hpost : ∀ job ∈ post, job.key ≠ upload.key := by
      have hnodup := h.unique
      rw [Server.UniqueKeys, Server.pendingKeys, hsplit, List.map_append, List.map_cons] at hnodup
      have htail := (List.nodup_cons.mp (List.nodup_append.mp hnodup).2.1).1
      intro job hjob hkey
      rw [hfirst, ← hkey] at htail
      exact htail (List.mem_map_of_mem hjob)
    rw [hcount]
    intro job hjob
    rcases List.mem_append.mp hjob with hjob | hjob
    · exact other job (by simp [hsplit, hjob]) (hpre job hjob)
    · rcases List.mem_cons.mp hjob with rfl | hjob
      · have hold := h.counts first (by simp [hsplit])
        rw [hfirst] at hold
        have hkey : PendingJob.key
            { first with filesReceived := first.filesReceived + 1, lastUpdate := now }
              = upload.key := hfirst
        rw [hkey, updatesSince_updated, if_pos rfl, ← hold]
      · exact other job (by simp [hsplit, hjob]) (hpost job hjob)
  · rw [hcount]
    intro job hjob
    exact other job hjob (hnone job hjob)

lemma append {now : ℤ} (h : CounterInv s events)
    (hfresh : s.AppendsFresh (.client (.append true now)))
    (hstep : s.step (.client (.append true now)) = some t) : ∀ job ∈ t.pendingJobs,
      job.filesReceived = updatesSince job.key
        (events ++ s.counterEvents (.client (.append true now))) := by
  obtain ⟨req, cmd, src, hpc, hjobs⟩ := step_append hstep
  have hkey : s.appendedKey (.client (.append true now)) = some (req.clientId, req.jobId) := by
    simp [Server.appendedKey, hpc]
  have hevents : s.counterEvents (.client (.append true now))
      = [.created (req.clientId, req.jobId)] := by
    simp [Server.counterEvents, hkey]
  rw [hevents, hjobs]
  intro job hjob
  rw [updatesSince_created]
  rcases List.mem_append.mp hjob with hjob | hjob
  · have hne : (req.clientId, req.jobId) ≠ job.key := by
      intro heq
      exact hfresh _ hkey (heq ▸ List.mem_map_of_mem hjob)
    rw [if_neg hne]
    exact h.counts job hjob
  · rw [List.mem_singleton.mp hjob]
    exact (if_pos rfl).symm

lemma step (h : CounterInv s events) (hfresh : s.AppendsFresh a) (hstep : s.step a = some t) :
    CounterInv t (events ++ s.counterEvents a) := by
  refine ⟨h.unique.step hfresh hstep, ?_⟩
  by_cases hupdate : ∃ w now, a = .worker w (.update now)
  · obtain ⟨w, now, rfl⟩ := hupdate
    exact h.update hstep
  · by_cases happend : ∃ now, a = .client (.append true now)
    · obtain ⟨now, rfl⟩ := happend
      exact h.append hfresh hstep
    · push Not at hupdate happend
      rw [counterEvents_eq_nil hupdate happend, List.append_nil]
      cases PendingRule.of_step hstep with
      | keep hjobs => exact hjobs ▸ h.counts
      | append req cmd src now hpc ha hjobs => exact absurd ha (happend now)
      | count w job remaining total now hpc ha hjobs => exact absurd ha (hupdate w now)
      | remove i ha hjobs =>
        intro job hjob
        exact h.counts job (List.mem_of_mem_eraseIdx (hjobs ▸ hjob))

end CounterInv

/-- No update of the counter is lost or misdirected: a final update adds one to the counter of the
first pending job with its key, or changes nothing if there is none; and in every run in which the
keys stay distinct the counter of each pending job is the number of the final updates for its key
since its creation. -/
theorem filesReceived_eq_updates :
    (∀ (s t : Server) (w : ℕ) (now : ℤ), s.step (.worker w (.update now)) = some t →
      ∃ upload remaining total, s.workers[w]? = some (.transferred upload remaining total) ∧
        ((∃ pre job post, s.pendingJobs = pre ++ job :: post ∧ job.key = upload.key ∧
            (∀ other ∈ pre, other.key ≠ upload.key) ∧
            t.pendingJobs = pre
              ++ { job with filesReceived := job.filesReceived + 1, lastUpdate := now } :: post) ∨
          (∀ other ∈ s.pendingJobs, other.key ≠ upload.key) ∧ t.pendingJobs = s.pendingJobs)) ∧
    ∀ (dir : Bytes) (as : List Action) (s : Server), run Server.step (.init dir) as = some s →
      Always Server.step Server.UniqueKeys (.init dir) as → ∀ job ∈ s.pendingJobs,
        job.filesReceived
          = updatesSince job.key (trace Server.step Server.counterEvents (.init dir) as) := by
  constructor
  · intro s t w now hstep
    obtain ⟨upload, remaining, total, hpc, hjobs⟩ := step_update hstep
    refine ⟨upload, remaining, total, hpc, ?_⟩
    rw [hjobs]
    exact countFile_cases upload.key now s.pendingJobs
  · intro dir as s h huniq
    have hinit : CounterInv (.init dir) [] := ⟨List.nodup_nil, by simp [Server.init]⟩
    exact (along_trace_invariant hinit (fun _ _ _ _ hs hC h => hs.step hC h)
      (along_appendsFresh h huniq) h).counts

/-- One upload for the only job. -/
theorem filesReceived_eq_updates_transferRun :
    ∃ s, run Server.step (.init []) (transferRun [.recv 60 60, .recv 40 40, .close]) = some s ∧
      ∀ job ∈ s.pendingJobs, job.filesReceived = updatesSince job.key
        (trace Server.step Server.counterEvents (.init [])
          (transferRun [.recv 60 60, .recv 40 40, .close])) := by
  obtain ⟨s, hs⟩ := Option.isSome_iff_exists.mp
    (show (run Server.step (.init [])
        (transferRun [.recv 60 60, .recv 40 40, .close])).isSome = true by decide +kernel)
  exact ⟨s, hs, filesReceived_eq_updates.2 [] _ s hs (always_uniqueKeys (by decide +kernel))⟩

end Pcd
