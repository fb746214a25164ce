import PcdProject.Server.ExecutedCommand

/-!
# How often a command is run

`process_pending_jobs` runs the command of a job in front of the steps that can fail. It removes the
job after a `sendto` that failed as well, but not after a `malloc` that failed.
-/

namespace Pcd

open Transition

/-- The index of the job whose command was run and that is still in the table. -/
def Processing.executed? : Processing → Option ℕ
  | .allocating _ i _ | .sending _ i _ | .removing _ i => some i
  | _ => none

/-- The numbers of the jobs whose commands were passed to `system`, one for each call. -/
def Ledger.executed (l : Ledger) : List ℕ := l.commands.map Prod.fst

section

variable {s t : Server} {a : Action} {l : Ledger} {p : Processing} {i k : ℕ} {n : JobNote}

lemma Processing.executed?_of_idle (h : p.idle = true) : p.executed? = none := by
  cases p <;> first | rfl | cases h

/-- Between the execution and the removal of a job, a pass turns to the next job after a `malloc`
that failed only. -/
lemma JobRule.removed_of_idle (h : s.step a = some t) (ha : a ≠ .processing (.malloc false))
    (hexecuted : s.processing.executed? = some i) (hidle : t.processing.idle = true) :
    s.jobEvents a = [.removed i] := by
  have hsame : t.processing ≠ s.processing := by
    intro heq
    rw [heq] at hidle
    rw [Processing.executed?_of_idle hidle] at hexecuted
    cases hexecuted
  cases SystemRule.of_step h with
  | client a _ h => exact absurd (by cases h <;> rfl) hsame
  | worker w a _ h => exact absurd (by cases h <;> rfl) hsame
  | download a _ h => exact absurd (by cases h <;> rfl) hsame
  | processing a _ h =>
    cases h with
    | remove dir j hpc =>
      rw [hpc] at hexecuted
      cases hexecuted
      simp [Server.jobEvents, hpc]
    | mallocFail => exact absurd rfl ha
    | malloc | sendto => cases hidle
    | getcwd hpc | getcwdFail _ hpc | lock _ hpc | unlock _ _ hpc | ready _ _ _ hpc
    | notReady _ _ hpc | chdir _ _ _ hpc | chdirFail _ _ hpc | system _ _ _ _ hpc
    | chdirBack _ _ _ hpc =>
      rw [hpc] at hexecuted
      cases hexecuted
  | sweep | kick | limit | limitIgnored | connectUpload | connectDownload =>
    exact absurd rfl hsame

/-! ### The invariant -/

/-- The commands that were run are those of the removed jobs, and of the one that the pass is about
to remove. -/
def Ledger.RanOnce (l : Ledger) (p : Processing) : Prop :=
  l.executed = l.removed ++ (p.executed?.bind (l.pending[·]?)).toList

lemma Ledger.RanOnce.of_idle (h : l.executed = l.removed) (hidle : p.idle = true) : l.RanOnce p := by
  rw [RanOnce, Processing.executed?_of_idle hidle, h]
  exact (List.append_nil _).symm

lemma Ledger.RanOnce.executed_eq (h : l.RanOnce p) (hnone : p.executed? = none) :
    l.executed = l.removed := by
  rw [RanOnce, hnone] at h
  exact h.trans (List.append_nil _)

/-- A note that is neither an execution nor a removal. -/
lemma Ledger.executed_note (f : ℕ → JobNote) (hran : ∀ k k' command ret, f k ≠ .ran k' command ret)
    (hremoved : ∀ k k', f k ≠ .removed k') :
    (l.note i f).executed = l.executed ∧ (l.note i f).removed = l.removed := by
  cases hi : l.pending[i]? with
  | none => simp [note, executed, commands, removed, hi]
  | some k =>
    rw [Ledger.note_eq f hi]
    cases hf : f k with
    | ran k' command ret => exact absurd hf (hran k k' command ret)
    | removed k' => exact absurd hf (hremoved k k')
    | passBegin | ready | sent => simp [executed, commands, removed]

lemma Ledger.RanOnce.step (hl : LedgerInv s l) (h : l.RanOnce s.processing)
    (ha : a ≠ .processing (.malloc false)) (hstep : s.step a = some t) :
    ((s.jobEvents a).foldl Ledger.next l).RanOnce t.processing := by
  cases JobRule.of_step hstep with
  | keep hevents hjobs hproc =>
    rw [hevents, hproc]
    exact h
  | create job hevents hjobs hidle hproc =>
    rw [hevents, hproc]
    exact .of_idle (h.executed_eq (Processing.executed?_of_idle hidle)) hidle
  | turn hevents hjobs hrem hidle =>
    have hnone : s.processing.executed? = none := by
      by_contra hne
      obtain ⟨i, hi⟩ := Option.ne_none_iff_exists'.mp hne
      have hremoved := JobRule.removed_of_idle hstep ha hi hidle
      rw [hremoved] at hevents
      rcases hevents with hevents | hevents <;> cases hevents
    have hsame := h.executed_eq hnone
    rcases hevents with hevents | hevents
    · rw [hevents]
      exact .of_idle hsame hidle
    · rw [hevents]
      refine .of_idle ?_ hidle
      simpa [Ledger.next, Ledger.executed, Ledger.commands, Ledger.removed] using hsame
  | ready dir i job hevents hjobs hjob hready hpc hpc' =>
    rw [hevents, hpc']
    obtain ⟨hexecuted, hremoved⟩ := Ledger.executed_note (l := l) (i := i) (.ready · job)
      (by simp) (by simp)
    rw [hpc] at h
    change (l.note i (.ready · job)).executed = (l.note i (.ready · job)).removed ++ _
    rw [hexecuted, hremoved, h.executed_eq rfl]
    exact (List.append_nil _).symm
  | enter dir i hevents hjobs hpc hpc' =>
    rw [hevents, hpc']
    rw [hpc] at h
    exact h
  | ran dir i ret hevents hjobs hpc hpc' =>
    have hstage := hl.stage
    rw [hpc] at hstage h
    obtain ⟨k, _, c, _, hk, hc, -⟩ := hstage
    obtain ⟨job, hjob, -⟩ := hl.entry hk hc
    rw [hevents, hpc', hjob, Option.toList_some, List.map_cons, List.map_nil, List.foldl_cons,
      List.foldl_nil, Ledger.next, Ledger.note_eq _ hk]
    have hsame := h.executed_eq rfl
    simp only [Ledger.RanOnce, Ledger.executed, Ledger.commands, Ledger.removed,
      List.filterMap_append, List.map_append] at hsame ⊢
    rw [hsame]
    simp [Processing.executed?, hk]
  | allocate dir i status hevents hjobs hpc hpc' =>
    rw [hevents, hpc']
    rw [hpc] at h
    exact h
  | sent dir i status job hevents hjobs hjob hpc hpc' =>
    rw [hevents, hpc']
    obtain ⟨hexecuted, hremoved⟩ := Ledger.executed_note (l := l) (i := i)
      (.sent · job.clientAddr (jobResult job status)) (by simp) (by simp)
    rw [hpc] at h
    change (l.note i _).executed = (l.note i _).removed ++ _
    rw [hexecuted, hremoved]
    exact h
  | removed dir i hevents hjobs hpc hpc' =>
    have hstage := hl.stage
    rw [hpc] at hstage h
    obtain ⟨k, hk, -⟩ := hstage
    rw [hevents, hpc', List.foldl_cons, List.foldl_nil, Ledger.next, Ledger.note_eq _ hk]
    refine .of_idle ?_ rfl
    simp only [Ledger.RanOnce, Processing.executed?, Option.bind_some, hk] at h
    simpa [Ledger.executed, Ledger.commands, Ledger.removed] using h

end

/-! ### Main result -/

/-- In a run in which no `malloc` of a JOB_RESULT fails, the command of each job is passed to
`system` at most once. -/
theorem commands_run_once {dir : Bytes} {as : List Action} {s : Server}
    (h : run Server.step (.init dir) as = some s)
    (hmalloc : .processing (.malloc false) ∉ as) : (Ledger.ofRun dir as).executed.Nodup := by
  have hC : Along Server.step (fun _ a => a ≠ .processing (.malloc false)) (.init dir) as := by
    rintro pre a t hpre - rfl
    exact hmalloc (hpre.subset (List.mem_append_right _ (List.mem_singleton_self _)))
  have hinv : LedgerInv s (.ofRun dir as) ∧ (Ledger.ofRun dir as).RanOnce s.processing := by
    refine along_trace_invariant
      (I := fun s es => LedgerInv s (.ofEvents es) ∧ (Ledger.ofEvents es).RanOnce s.processing)
      ⟨.init dir, rfl⟩ ?_ hC h
    rintro s a t es ⟨hl, hs⟩ ha hstep
    rw [Ledger.ofEvents, List.foldl_append]
    exact ⟨hl.step hstep, hs.step hl ha hstep⟩
  rw [hinv.2]
  exact hinv.1.nodup_removed_append _

/-- A job with a file, executed, answered and removed. -/
theorem commands_run_once_processRun : (Ledger.ofRun [] processRun).executed.Nodup := by
  obtain ⟨s, hs⟩ := Option.isSome_iff_exists.mp
    (show (run Server.step (.init []) processRun).isSome = true by decide +kernel)
  refine commands_run_once hs ?_
  simp [processRun, transferRun, jobRun, jobRequestRun]

/-- The first pass cannot allocate the answer, and the second pass runs the command again. -/
theorem not_commands_run_once_malloc :
    ¬ ∀ dir as s, run Server.step (.init dir) as = some s →
      (Ledger.ofRun dir as).executed.Nodup := by
  intro h
  let as : List Action :=
    transferRun [.recv 60 60, .recv 40 40, .close]
      ++ [.processing (.system 0), .processing (.malloc false), .processing (.chdirBack true),
        .processing .check, .processing (.getcwd true), .processing .lock, .processing .check,
        .processing (.chdir true), .processing (.system 0)]
  obtain ⟨s, hs⟩ := Option.isSome_iff_exists.mp
    (show (run Server.step (.init []) as).isSome = true by decide +kernel)
  have htwice : (Ledger.ofRun [] as).executed = [0, 0] := by decide +kernel
  have hnodup := h [] as s hs
  rw [htwice] at hnodup
  exact absurd hnodup (by decide)

end Pcd
