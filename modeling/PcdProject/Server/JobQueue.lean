import PcdProject.Core.Slots
import PcdProject.Core.StableQueue
import PcdProject.Core.Transition

/-!
# The upload queue

`upload_queue` is a growable array. `handle_upload_request` inserts a job by moving the jobs of
smaller priority up by one, starting from the back; a worker removes `jobs[0]` and moves the
others down. `Represents` relates the array to the list of its first `size` entries, on which the
two operations are `StableQueue.insert` and the removal of the head.
-/

namespace Pcd

variable {J P : Type*} [LinearOrder P]

/-- A growable array of jobs (`UploadQueue`, `DownloadQueue`). -/
structure JobQueue (J : Type*) where
  jobs : Slots J
  size : ℕ
  capacity : ℕ

namespace JobQueue

/-- The queue as `init_upload_handler` leaves it. -/
def init : JobQueue J := ⟨Slots.malloc 10, 0, 10⟩

/-- Double the capacity of a full queue. -/
def grow (q : JobQueue J) : JobQueue J :=
  if q.size = q.capacity then
    { q with jobs := q.jobs.realloc (q.capacity * 2), capacity := q.capacity * 2 }
  else q

/-- The loop of `handle_upload_request`, the number `k` being `i + 1`: move `jobs[i]` up as long as
the new job has a strictly higher priority, and return where the loop stops. -/
def shiftLoop (priority : J → P) (job : J) : Slots J → ℕ → Option (Slots J × ℕ)
  | m, 0     => some (m, 0)
  | m, k + 1 => do
    let other ← m.load k
    if priority other < priority job then
      let m ← m.store (k + 1) other
      shiftLoop priority job m k
    else
      some (m, k + 1)

/-- The insertion in `handle_upload_request`. -/
def enqueue (priority : J → P) (q : JobQueue J) (job : J) : Option (JobQueue J) := do
  let q := q.grow
  let (m, k) ← shiftLoop priority job q.jobs q.size
  let m ← m.store k job
  some { q with jobs := m, size := q.size + 1 }

/-- The removal of `jobs[0]` in `upload_thread_func`. -/
def takeFirst (q : JobQueue J) : Option (J × JobQueue J) := do
  let job ← q.jobs.load 0
  let m ← q.jobs.moveDown (q.size - 1)
  some (job, { q with jobs := m, size := q.size - 1 })

/-- The array is well formed, and its first `size` entries are `xs`. -/
structure Represents (q : JobQueue J) (xs : List J) : Prop where
  size_eq : q.size = xs.length
  holds : q.jobs.Holds xs
  capacity_eq : q.capacity = q.jobs.length
  capacity_pos : 0 < q.capacity

variable {priority : J → P} {q : JobQueue J} {job : J} {xs : List J}

lemma represents_init : Represents (init : JobQueue J) [] :=
  ⟨rfl, Slots.holds_nil, by simp [init], by simp [init]⟩

/-- After growing there is a free cell behind the jobs. -/
lemma Represents.grow (h : Represents q xs) :
    Represents q.grow xs ∧ xs.length < q.grow.jobs.length := by
  have hle := h.holds.length_le
  have hsize := h.size_eq
  have hcap := h.capacity_eq
  have hpos := h.capacity_pos
  unfold JobQueue.grow
  split_ifs with hfull
  · refine ⟨⟨hsize, h.holds.realloc (by omega), by simp, by simpa using hpos⟩, ?_⟩
    simp only [Slots.length_realloc]
    omega
  · exact ⟨h, by omega⟩

/-- The loop moves up the jobs of smaller priority and leaves a gap in front of them. -/
lemma shiftLoop_spec (priority : J → P) (job : J) (ys zs : List J) (gap : Option J)
    (tail : Slots J) : ∃ gap',
    shiftLoop priority job (ys.map some ++ gap :: (zs.map some ++ tail)) ys.length =
      some ((ys.rdropWhile fun y => priority y < priority job).map some ++ gap' ::
          ((ys.rtakeWhile fun y => priority y < priority job) ++ zs).map some ++ tail,
        (ys.rdropWhile fun y => priority y < priority job).length) := by
  induction ys using List.reverseRecOn generalizing zs gap with
  | nil => exact ⟨gap, by simp [shiftLoop]⟩
  | append_singleton ys y ih =>
    have hload : Slots.load ((ys ++ [y]).map some ++ gap :: (zs.map some ++ tail)) ys.length
        = some y := by
      rw [List.map_append, List.append_assoc]
      exact Slots.load_append _ _
    rw [List.length_append, List.length_singleton]
    simp only [shiftLoop, hload, Option.bind_eq_bind, Option.bind_some]
    by_cases hlt : priority y < priority job
    · have hstore : Slots.store ((ys ++ [y]).map some ++ gap :: (zs.map some ++ tail))
          (ys.length + 1) y
          = some (ys.map some ++ some y :: ((y :: zs).map some ++ tail)) := by
        have := Slots.store_append (ys ++ [y]) y gap (zs.map some ++ tail)
        simpa using this
      obtain ⟨gap', hloop⟩ := ih (y :: zs) (some y)
      refine ⟨gap', ?_⟩
      rw [if_pos hlt, hstore, Option.bind_some, hloop]
      simp [hlt]
    · exact ⟨gap, by simp [hlt]⟩

lemma Represents.enqueue (h : Represents q xs) (priority : J → P) (job : J) :
    ∃ q', q.enqueue priority job = some q' ∧
      Represents q' (StableQueue.insert priority job xs) := by
  obtain ⟨hg, hroom⟩ := h.grow
  obtain ⟨tail, htail⟩ := hg.holds
  cases tail with
  | nil =>
    rw [← htail] at hroom
    simp at hroom
  | cons gap tail =>
    obtain ⟨gap', hloop⟩ := shiftLoop_spec priority job xs [] gap tail
    simp only [List.map_nil, List.nil_append, List.append_nil, htail] at hloop
    have hstore := Slots.store_append (xs.rdropWhile fun y => priority y < priority job)
      job gap' ((xs.rtakeWhile fun y => priority y < priority job).map some ++ tail)
    have hlength : (StableQueue.insert priority job xs).length = xs.length + 1 :=
      (StableQueue.insert_perm _ _ _).length_eq
    refine ⟨{ q.grow with
      jobs := (xs.rdropWhile fun y => priority y < priority job).map some ++ some job ::
        ((xs.rtakeWhile fun y => priority y < priority job).map some ++ tail),
      size := q.grow.size + 1 }, ?_, ?_, ?_, ?_, hg.capacity_pos⟩
    · simp only [JobQueue.enqueue, hg.size_eq, hloop, Option.bind_eq_bind, Option.bind_some,
        List.append_assoc, List.cons_append, hstore]
    · simp only [hlength, hg.size_eq]
    · exact ⟨tail, by simp [StableQueue.insert]⟩
    · have hlen := congrArg List.length htail
      have hsplit := congrArg List.length
        (List.rdropWhile_append_rtakeWhile (l := xs) (p := fun y => priority y < priority job))
      simp only [List.length_append, List.length_map, List.length_cons] at hlen hsplit ⊢
      have hcap := hg.capacity_eq
      omega

lemma Represents.takeFirst (h : Represents q (job :: xs)) :
    ∃ q', q.takeFirst = some (job, q') ∧ Represents q' xs := by
  obtain ⟨m, hm, hlen, hholds⟩ := h.holds.moveDown
  have hload : q.jobs.load 0 = some job := by
    obtain ⟨tail, htail⟩ := h.holds
    rw [← htail]
    exact Slots.load_append [] _
  have hsize : q.size - 1 = xs.length := by simp [h.size_eq]
  refine ⟨⟨m, q.size - 1, q.capacity⟩, ?_, hsize, hholds, ?_, h.capacity_pos⟩
  · simp only [JobQueue.takeFirst, hload, hsize, hm, Option.bind_eq_bind, Option.bind_some]
  · rw [hlen]
    exact h.capacity_eq

end JobQueue

/-! ### Sequences of operations -/

inductive QueueOp (J : Type*) where
  | enqueue (job : J)
  | dequeue

/-- The operations on the array, together with the jobs that were removed so far. On an empty
queue a worker does not come to the removal: it waits. -/
def QueueOp.step (priority : J → P) : JobQueue J × List J → QueueOp J → Option (JobQueue J × List J)
  | (q, out), .enqueue job => (q.enqueue priority job).map fun q => (q, out)
  | (q, out), .dequeue =>
    if q.size = 0 then some (q, out)
    else q.takeFirst.map fun (job, q) => (q, out ++ [job])

/-- What the queue is for: the jobs that wait, in the order of their arrival, and the jobs that
were served, where each time the earliest of the waiting jobs of highest priority is served. -/
structure Service (J : Type*) where
  waiting : List J
  served : List J

def Service.step (priority : J → P) (r : Service J) : QueueOp J → Service J
  | .enqueue job => { r with waiting := r.waiting ++ [job] }
  | .dequeue =>
    match StableQueue.best priority r.waiting with
    | none             => r
    | some (job, rest) => ⟨rest, r.served ++ [job]⟩

def Service.run (priority : J → P) (ops : List (QueueOp J)) : Service J :=
  ops.foldl (Service.step priority) ⟨[], []⟩

/-- The jobs of the enqueue operations. -/
def QueueOp.enqueued (ops : List (QueueOp J)) : List J :=
  ops.filterMap fun
    | .enqueue job => some job
    | .dequeue     => none

section Operations

variable {priority : J → P}

/-- One operation on the array is the same operation on the service. -/
lemma QueueOp.step_refines {q : JobQueue J} {xs : List J} {r : Service J} (op : QueueOp J)
    (hq : q.Represents xs) (hr : StableQueue.StableSort priority r.waiting xs) :
    ∃ q' xs', QueueOp.step priority (q, r.served) op = some (q', (r.step priority op).served) ∧
      q'.Represents xs' ∧ StableQueue.StableSort priority (r.step priority op).waiting xs' := by
  cases op with
  | enqueue job =>
    obtain ⟨q', hq', hrep⟩ := hq.enqueue priority job
    exact ⟨q', _, by simp [QueueOp.step, hq', Service.step], hrep, hr.insert job⟩
  | dequeue =>
    cases xs with
    | nil =>
      have hempty : r.waiting = [] := hr.best_of_nil
      refine ⟨q, [], ?_, hq, ?_⟩
      · simp [QueueOp.step, hq.size_eq, Service.step, hempty, StableQueue.best]
      · simpa [Service.step, hempty, StableQueue.best] using StableQueue.StableSort.nil
    | cons job xs =>
      obtain ⟨rest, hbest, hrest⟩ := hr.best_of_cons
      obtain ⟨q', hq', hrep⟩ := hq.takeFirst
      refine ⟨q', xs, ?_, hrep, ?_⟩
      · simp [QueueOp.step, hq.size_eq, hq', Service.step, hbest]
      · simpa [Service.step, hbest] using hrest

/-- The array never faults, and serves as the service does. -/
lemma QueueOp.run_refines (priority : J → P) (ops : List (QueueOp J)) :
    ∃ q xs, Transition.run (QueueOp.step priority) (JobQueue.init, []) ops
        = some (q, (Service.run priority ops).served) ∧
      q.Represents xs ∧ StableQueue.StableSort priority (Service.run priority ops).waiting xs := by
  induction ops using List.reverseRecOn with
  | nil => exact ⟨.init, [], rfl, JobQueue.represents_init, StableQueue.StableSort.nil⟩
  | append_singleton ops op ih =>
    obtain ⟨q, xs, hrun, hq, hr⟩ := ih
    obtain ⟨q', xs', hstep, hq', hr'⟩ := QueueOp.step_refines op hq hr
    have hconcat : Service.run priority (ops ++ [op]) = (Service.run priority ops).step priority op := by
      simp [Service.run]
    rw [hconcat]
    exact ⟨q', xs', Transition.run_concat_eq_some.mpr ⟨_, hrun, hstep⟩, hq', hr'⟩

/-- Served and waiting jobs together are the jobs that were enqueued. -/
lemma Service.served_append_waiting_perm (priority : J → P) (ops : List (QueueOp J)) :
    ((run priority ops).served ++ (run priority ops).waiting).Perm (QueueOp.enqueued ops) := by
  induction ops using List.reverseRecOn with
  | nil => rfl
  | append_singleton ops op ih =>
    have hconcat : run priority (ops ++ [op]) = (run priority ops).step priority op := by
      simp [run]
    rw [hconcat]
    cases op with
    | enqueue job =>
      simp only [step, QueueOp.enqueued, List.filterMap_append, ← List.append_assoc]
      exact ih.append_right [job]
    | dequeue =>
      have henq : QueueOp.enqueued (ops ++ [.dequeue]) = QueueOp.enqueued ops := by
        simp [QueueOp.enqueued]
      rw [henq]
      refine List.Perm.trans ?_ ih
      cases hbest : StableQueue.best priority (run priority ops).waiting with
      | none => simp [step, hbest]
      | some b =>
        obtain ⟨ys, zs, hwait, hrest, -, -⟩ := StableQueue.best_eq_some_iff.mp hbest
        simp only [step, hbest]
        rw [hwait, hrest, List.append_assoc, List.singleton_append]
        exact List.perm_middle.symm.append_left _

/-- The upload queue is a stable priority queue: after any sequence of operations the first `size`
entries are in non-increasing priority, those of equal priority in the order of their arrival; they
are the jobs that were enqueued and not dequeued; and every dequeue returned the earliest of the
waiting jobs of highest priority. -/
theorem uploadQueue_stable (priority : J → P) (ops : List (QueueOp J)) :
    ∃ q out xs, Transition.run (QueueOp.step priority) (JobQueue.init, []) ops = some (q, out) ∧
      q.size = xs.length ∧ q.jobs.Holds xs ∧
      xs.Pairwise (fun a b => priority b ≤ priority a) ∧
      (∀ p, xs.filter (fun a => priority a = p)
        = (Service.run priority ops).waiting.filter (fun a => priority a = p)) ∧
      xs.Perm (Service.run priority ops).waiting ∧
      (out ++ xs).Perm (QueueOp.enqueued ops) ∧
      out = (Service.run priority ops).served := by
  obtain ⟨q, xs, hrun, hq, hr⟩ := QueueOp.run_refines priority ops
  refine ⟨q, _, xs, hrun, hq.size_eq, hq.holds, hr.sorted, hr.stable, hr.perm, ?_, rfl⟩
  exact (hr.perm.append_left _).trans (Service.served_append_waiting_perm priority ops)

end Operations

end Pcd
