import Mathlib.Algebra.Group.Int.Defs
import Mathlib.Algebra.Group.Nat.Defs
import PcdProject.Server.JobQueue

/-!
# The arrays of the queues

`upload_queue` and `download_queue` with the `int`s of the program: `size`, `capacity` and the loop
index are signed, and an operation faults (`none`) when an index lies outside of the array, when the
length of a `memmove` is negative and when a result is no `int`. While the capacity is an `int` the
operations are those of `JobQueue` and none of them faults.
-/

namespace Pcd

open Transition

variable {J P : Type} [LinearOrder P]

/-- `UploadQueue` and `DownloadQueue` -/
structure JobArray (J : Type) where
  jobs : Slots J
  size : ℤ
  capacity : ℤ

/-- The result of signed arithmetic, which must not overflow. -/
def int (x : ℤ) : Option ℤ := if -2 ^ 31 ≤ x ∧ x < 2 ^ 31 then some x else none

namespace JobArray

/-- `jobs[i]` -/
def load (m : Slots J) (i : ℤ) : Option J := if 0 ≤ i then m.load i.toNat else none

/-- `jobs[i] = job` -/
def store (m : Slots J) (i : ℤ) (job : J) : Option (Slots J) :=
  if 0 ≤ i then m.store i.toNat job else none

/-- `memmove(&jobs[0], &jobs[1], n * sizeof(job))` -/
def memmove (m : Slots J) (n : ℤ) : Option (Slots J) := if 0 ≤ n then m.moveDown n.toNat else none

/-- Double the capacity of a full queue. -/
def grow (a : JobArray J) : Option (JobArray J) :=
  if a.size = a.capacity then do
    let capacity ← int (a.capacity * 2)
    some { a with jobs := a.jobs.realloc capacity.toNat, capacity := capacity }
  else some a

/-- The loop of `handle_upload_request`, with the index at which it stops. -/
def shiftLoop (priority : J → P) (job : J) (m : Slots J) (i : ℤ) : Option (Slots J × ℤ) :=
  if 0 ≤ i then do
    let other ← load m i
    if priority other < priority job then
      let m ← store m (i + 1) other
      shiftLoop priority job m (i - 1)
    else
      some (m, i)
  else
    some (m, i)
termination_by (i + 1).toNat

/-- The insertion in `handle_upload_request`. -/
def enqueue (priority : J → P) (a : JobArray J) (job : J) : Option (JobArray J) := do
  let a ← a.grow
  let (m, i) ← shiftLoop priority job a.jobs (a.size - 1)
  let m ← store m (i + 1) job
  let size ← int (a.size + 1)
  some { a with jobs := m, size := size }

/-- The insertion in `handle_download_request`. -/
def append (a : JobArray J) (job : J) : Option (JobArray J) := do
  let a ← a.grow
  let m ← store a.jobs a.size job
  let size ← int (a.size + 1)
  some { a with jobs := m, size := size }

/-- The removal of `jobs[0]` in `upload_thread_func` and `download_thread`. -/
def takeFirst (a : JobArray J) : Option (J × JobArray J) := do
  let job ← load a.jobs 0
  let m ← memmove a.jobs (a.size - 1)
  some (job, { a with jobs := m, size := a.size - 1 })

end JobArray

/-- The queue with its sizes as `int`s. -/
@[simps]
def JobQueue.toArray (q : JobQueue J) : JobArray J := ⟨q.jobs, q.size, q.capacity⟩

/-- The capacity up to which doubling does not overflow. -/
def QUEUE_LIMIT : ℕ := 10 * 2 ^ 27

/-- The queue holds the jobs `xs`, and its capacity has been doubled some number of times. -/
structure JobQueue.Fits (q : JobQueue J) (xs : List J) : Prop extends q.Represents xs where
  doubled : ∃ k ≤ 27, q.capacity = 10 * 2 ^ k

/-- The operations on one of the arrays, which jobs enter by `insert`, together with the jobs that
were removed so far. A thread that finds the queue empty waits. -/
def JobArray.step (insert : JobArray J → J → Option (JobArray J)) :
    JobArray J × List J → QueueOp J → Option (JobArray J × List J)
  | (a, out), .enqueue job => (insert a job).map fun a => (a, out)
  | (a, out), .dequeue =>
    if a.size = 0 then some (a, out)
    else a.takeFirst.map fun (job, a) => (a, out ++ [job])

/-- A job is enqueued only while there are fewer than `QUEUE_LIMIT` jobs. -/
def JobArray.BelowLimit : JobArray J × List J → QueueOp J → Prop
  | (a, _), .enqueue _ => a.size < QUEUE_LIMIT
  | _, .dequeue        => True

/-! ### The operations without a fault -/

section Operations

variable {priority : J → P} {q : JobQueue J} {job : J} {xs : List J} {m : Slots J}

lemma int_eq_some {x : ℤ} (hlow : 0 ≤ x) (hhigh : x < 2 ^ 31) : int x = some x :=
  if_pos ⟨by omega, hhigh⟩

@[simp] lemma JobArray.load_natCast (m : Slots J) (i : ℕ) : JobArray.load m i = m.load i := by
  simp [JobArray.load]

@[simp] lemma JobArray.store_natCast (m : Slots J) (i : ℕ) (job : J) :
    JobArray.store m i job = m.store i job := by
  simp [JobArray.store]

@[simp] lemma JobArray.memmove_natCast (m : Slots J) (n : ℕ) :
    JobArray.memmove m n = m.moveDown n := by
  simp [JobArray.memmove]

/-- The loop over `i` is the loop over `i + 1`. -/
lemma JobArray.shiftLoop_eq (priority : J → P) (job : J) (m : Slots J) (k : ℕ) :
    JobArray.shiftLoop priority job m (k - 1) =
      (JobQueue.shiftLoop priority job m k).map fun (m, k) => (m, (k : ℤ) - 1) := by
  induction k generalizing m with
  | zero =>
    rw [JobArray.shiftLoop, if_neg (by omega)]
    rfl
  | succ k ih =>
    have hindex : ((k + 1 : ℕ) : ℤ) - 1 = k := by omega
    rw [hindex, JobArray.shiftLoop, if_pos (Int.natCast_nonneg k), JobQueue.shiftLoop,
      JobArray.load_natCast]
    simp only [Option.bind_eq_bind, Option.map_bind]
    congr 1
    funext other
    by_cases hlt : priority other < priority job
    · have hnext : (k : ℤ) + 1 = ((k + 1 : ℕ) : ℤ) := by omega
      simp only [Function.comp_def, if_pos hlt, hnext, JobArray.store_natCast, ih,
        Option.map_bind]
    · simp only [Function.comp_apply, if_neg hlt, Option.map_some, hindex]

lemma JobQueue.fits_init : (JobQueue.init : JobQueue J).Fits [] :=
  { JobQueue.represents_init with doubled := ⟨0, Nat.zero_le _, rfl⟩ }

/-- A full queue below the limit is doubled to an `int`. -/
lemma JobQueue.Fits.grow (hq : q.Fits xs) (hlt : xs.length < QUEUE_LIMIT) :
    q.toArray.grow = some q.grow.toArray ∧ q.grow.Fits xs ∧ xs.length < q.grow.jobs.length := by
  obtain ⟨hrep, hroom⟩ := hq.toRepresents.grow
  obtain ⟨k, hk, hcapacity⟩ := hq.doubled
  unfold QUEUE_LIMIT at hlt
  by_cases hfull : q.size = q.capacity
  · have hk' : k < 27 := by
      by_contra hge
      have heq : k = 27 := by omega
      have hsize := hq.size_eq
      rw [hfull, hcapacity, heq] at hsize
      omega
    have hdouble : q.grow.capacity = 10 * 2 ^ (k + 1) := by
      rw [JobQueue.grow, if_pos hfull]
      change q.capacity * 2 = _
      rw [hcapacity, Nat.pow_succ, Nat.mul_assoc]
    have hpow : 2 ^ (k + 1) ≤ 2 ^ 27 := Nat.pow_le_pow_right (by omega) hk'
    have hint : int ((q.capacity : ℤ) * 2) = some ((q.capacity * 2 : ℕ) : ℤ) := by
      have hcap : q.capacity * 2 = 10 * 2 ^ (k + 1) := by
        rw [hcapacity, Nat.pow_succ, Nat.mul_assoc]
      apply int_eq_some <;> omega
    refine ⟨?_, { hrep with doubled := ⟨k + 1, hk', hdouble⟩ }, hroom⟩
    have hfull' : (q.size : ℤ) = q.capacity := congrArg Nat.cast hfull
    simp only [JobArray.grow, JobQueue.toArray, if_pos hfull', hint, JobQueue.grow, if_pos hfull,
      Option.bind_eq_bind, Option.bind_some, Int.toNat_natCast]
  · have hgrow : q.grow = q := if_neg hfull
    have hfull' : (q.size : ℤ) ≠ q.capacity := fun h => hfull (Int.ofNat.inj h)
    rw [hgrow] at hroom ⊢
    exact ⟨if_neg hfull', hq, hroom⟩

/-- The jobs fit in a capacity that an `int` holds. -/
lemma JobQueue.Fits.size_le (hq : q.Fits xs) :
    0 ≤ q.toArray.size ∧ q.toArray.size ≤ q.toArray.capacity ∧
      q.toArray.capacity = q.jobs.length ∧ ∃ k : ℕ, q.toArray.capacity = 10 * 2 ^ k := by
  have hlength := hq.holds.length_le
  have hsize := hq.size_eq
  have hcapacity := hq.capacity_eq
  obtain ⟨k, -, hk⟩ := hq.doubled
  refine ⟨Int.natCast_nonneg _, ?_, congrArg Nat.cast hcapacity, k, ?_⟩
  · apply Int.ofNat_le.mpr
    omega
  · change (q.capacity : ℤ) = _
    rw [hk]
    push_cast
    rfl

/-- Below the limit the insertion of an upload faults nowhere. -/
lemma JobQueue.Fits.enqueue (hq : q.Fits xs) (hlt : xs.length < QUEUE_LIMIT) (priority : J → P)
    (job : J) : ∃ q', q.enqueue priority job = some q' ∧
      q.toArray.enqueue priority job = some q'.toArray ∧
      q'.Fits (StableQueue.insert priority job xs) := by
  obtain ⟨hgrow, hfits, -⟩ := hq.grow hlt
  obtain ⟨q', hq', hrep⟩ := hq.toRepresents.enqueue priority job
  have hsize : int ((q.grow.size : ℤ) + 1) = some ((q.grow.size + 1 : ℕ) : ℤ) := by
    have hlength := hfits.size_eq
    unfold QUEUE_LIMIT at hlt
    apply int_eq_some <;> omega
  simp only [JobQueue.enqueue, Option.bind_eq_bind, Option.bind_eq_some_iff] at hq'
  obtain ⟨⟨m, k⟩, hloop, m', hstore, heq⟩ := hq'
  cases heq
  refine ⟨_, ?_, ?_, { hrep with doubled := hfits.doubled }⟩
  · simp only [JobQueue.enqueue, Option.bind_eq_bind, hloop, Option.bind_some, hstore]
  · have hindex : (k : ℤ) - 1 + 1 = k := by omega
    simp only [JobArray.enqueue, hgrow, Option.bind_eq_bind, Option.bind_some,
      JobQueue.toArray_jobs, JobQueue.toArray_size, JobArray.shiftLoop_eq, hloop, Option.map_some,
      hindex, JobArray.store_natCast, hstore, hsize]
    rfl

/-- Below the limit the insertion of a download faults nowhere, and it is made at the end. -/
lemma JobQueue.Fits.append (hq : q.Fits xs) (hlt : xs.length < QUEUE_LIMIT) (job : J) :
    ∃ q' : JobQueue J, q.toArray.append job = some q'.toArray ∧ q'.Fits (xs ++ [job]) := by
  obtain ⟨hgrow, hfits, hroom⟩ := hq.grow hlt
  have hlength := hfits.size_eq
  have hsize : int ((q.grow.size : ℤ) + 1) = some ((q.grow.size + 1 : ℕ) : ℤ) := by
    unfold QUEUE_LIMIT at hlt
    apply int_eq_some <;> omega
  obtain ⟨tail, htail⟩ := hfits.holds
  cases tail with
  | nil =>
    rw [← htail] at hroom
    simp at hroom
  | cons gap tail =>
    have hstore := Slots.store_append xs job gap tail
    rw [htail] at hstore
    refine ⟨{ q.grow with
      jobs := xs.map some ++ some job :: tail
      size := q.grow.size + 1 }, ?_, ?_⟩
    · rw [← hlength] at hstore
      simp only [JobArray.append, hgrow, Option.bind_eq_bind, Option.bind_some,
        JobQueue.toArray_jobs, JobQueue.toArray_size, JobArray.store_natCast, hstore, hsize]
      rfl
    · have hblock := congrArg List.length htail
      have hcapacity := hfits.capacity_eq
      refine ⟨⟨?_, ⟨tail, ?_⟩, ?_, hfits.capacity_pos⟩, hfits.doubled⟩
      · rw [List.length_append, ← hlength]
        rfl
      · rw [List.map_append, List.append_assoc]
        rfl
      · change q.grow.capacity = _
        rw [List.length_append, List.length_cons] at hblock ⊢
        omega

/-- The removal from a queue that is not empty faults nowhere. -/
lemma JobQueue.Fits.takeFirst (hq : q.Fits (job :: xs)) :
    ∃ q', q.takeFirst = some (job, q') ∧ q.toArray.takeFirst = some (job, q'.toArray) ∧
      q'.Fits xs := by
  obtain ⟨q', hq', hrep⟩ := hq.toRepresents.takeFirst
  simp only [JobQueue.takeFirst, Option.bind_eq_bind, Option.bind_eq_some_iff] at hq'
  obtain ⟨job', hload, m, hmove, heq⟩ := hq'
  cases heq
  have hsize : (q.size : ℤ) - 1 = ((q.size - 1 : ℕ) : ℤ) := by
    have hlength : q.size = xs.length + 1 := hq.size_eq
    omega
  refine ⟨_, ?_, ?_, { hrep with doubled := hq.doubled }⟩
  · simp only [JobQueue.takeFirst, hload, hmove, Option.bind_eq_bind, Option.bind_some]
  · have hload' : JobArray.load q.jobs 0 = some job := hload
    simp only [JobArray.takeFirst, JobQueue.toArray, hload', hsize, JobArray.memmove_natCast,
      hmove, Option.bind_eq_bind, Option.bind_some]

end Operations

/-! ### Sequences of operations -/

/-- The operations on the list of the jobs, which enter it by `place`. -/
def QueueOp.onList (place : J → List J → List J) : List J × List J → QueueOp J → List J × List J
  | (xs, out), .enqueue job      => (place job xs, out)
  | ([], out), .dequeue          => ([], out)
  | (job :: xs, out), .dequeue   => (xs, out ++ [job])

section Sequences

variable {insert : JobArray J → J → Option (JobArray J)} {place : J → List J → List J}
variable {q : JobQueue J} {xs out : List J} {ops : List (QueueOp J)}

lemma JobQueue.Fits.step (hq : q.Fits xs) (op : QueueOp J)
    (hinsert : ∀ job, xs.length < QUEUE_LIMIT →
      ∃ q' : JobQueue J, insert q.toArray job = some q'.toArray ∧ q'.Fits (place job xs))
    (hbelow : JobArray.BelowLimit (q.toArray, out) op) :
    ∃ q' : JobQueue J, JobArray.step insert (q.toArray, out) op
        = some (q'.toArray, (op.onList place (xs, out)).2) ∧
      q'.Fits (op.onList place (xs, out)).1 := by
  cases op with
  | enqueue job =>
    have hlt : xs.length < QUEUE_LIMIT := by
      have hsize := hq.size_eq
      have hlt : (q.size : ℤ) < QUEUE_LIMIT := hbelow
      omega
    obtain ⟨q', hq', hfits⟩ := hinsert job hlt
    exact ⟨q', by rw [JobArray.step, hq']; rfl, hfits⟩
  | dequeue =>
    have hsize := hq.size_eq
    cases xs with
    | nil =>
      have hzero : (q.size : ℤ) = 0 := congrArg Nat.cast hsize
      exact ⟨q, if_pos hzero, hq⟩
    | cons job xs =>
      have hne : (q.size : ℤ) ≠ 0 := by
        rw [hsize, List.length_cons]
        omega
      obtain ⟨q', -, hq', hfits⟩ := hq.takeFirst
      refine ⟨q', ?_, hfits⟩
      rw [JobArray.step, JobQueue.toArray_size, if_neg hne, hq']
      rfl

/-- An array whose insertion faults nowhere below the limit goes through all its operations. -/
lemma JobArray.run_fits
    (hinsert : ∀ (q : JobQueue J) xs job, q.Fits xs → xs.length < QUEUE_LIMIT →
      ∃ q' : JobQueue J, insert q.toArray job = some q'.toArray ∧ q'.Fits (place job xs))
    (hbelow : Along (JobArray.step insert) JobArray.BelowLimit (JobQueue.init.toArray, []) ops) :
    ∃ q : JobQueue J, run (JobArray.step insert) (JobQueue.init.toArray, []) ops
        = some (q.toArray, (ops.foldl (fun s op => op.onList place s) ([], [])).2) ∧
      q.Fits (ops.foldl (fun s op => op.onList place s) ([], [])).1 := by
  induction ops using List.reverseRecOn with
  | nil => exact ⟨.init, rfl, JobQueue.fits_init⟩
  | append_singleton ops op ih =>
    obtain ⟨hbefore, hop⟩ := along_concat.mp hbelow
    obtain ⟨q, hrun, hq⟩ := ih hbefore
    obtain ⟨q', hstep, hq'⟩ := hq.step op (fun job => hinsert q _ job hq) (hop _ hrun)
    rw [List.foldl_append]
    exact ⟨q', run_concat_eq_some.mpr ⟨_, hrun, hstep⟩, hq'⟩

/-- A queue that jobs enter at the end yields them in the order in which they entered. -/
lemma QueueOp.onList_append (ops : List (QueueOp J)) :
    (ops.foldl (fun s op => op.onList (fun job xs => xs ++ [job]) s) ([], [])).2
        ++ (ops.foldl (fun s op => op.onList (fun job xs => xs ++ [job]) s) ([], [])).1
      = QueueOp.enqueued ops := by
  induction ops using List.reverseRecOn with
  | nil => rfl
  | append_singleton ops op ih =>
    rw [List.foldl_append, QueueOp.enqueued, List.filterMap_append]
    change _ = QueueOp.enqueued ops ++ _
    rw [← ih]
    generalize ops.foldl (fun s op => op.onList (fun job xs => xs ++ [job]) s) ([], []) = s
    obtain ⟨xs, out⟩ := s
    cases op with
    | enqueue job => exact (List.append_assoc _ _ _).symm
    | dequeue =>
      cases xs with
      | nil => exact (List.append_nil _).symm
      | cons job xs => simp [QueueOp.onList]

/-- No upload is lost or served twice. -/
lemma QueueOp.onList_perm (priority : J → P) (ops : List (QueueOp J)) :
    ((ops.foldl (fun s op => op.onList (StableQueue.insert priority) s) ([], [])).2
        ++ (ops.foldl (fun s op => op.onList (StableQueue.insert priority) s) ([], [])).1).Perm
      (QueueOp.enqueued ops) := by
  induction ops using List.reverseRecOn with
  | nil => rfl
  | append_singleton ops op ih =>
    rw [List.foldl_append, QueueOp.enqueued, List.filterMap_append]
    change List.Perm _ (QueueOp.enqueued ops ++ _)
    refine List.Perm.trans ?_ (ih.append_right _)
    generalize ops.foldl (fun s op => op.onList (StableQueue.insert priority) s) ([], []) = s
    obtain ⟨xs, out⟩ := s
    cases op with
    | enqueue job =>
      have hperm := (StableQueue.insert_perm priority job xs).trans
        (List.perm_append_singleton job xs).symm
      refine (hperm.append_left out).trans ?_
      rw [← List.append_assoc]
      rfl
    | dequeue =>
      cases xs with
      | nil => simp [QueueOp.onList]
      | cons job xs => simp [QueueOp.onList]

end Sequences

/-! ### Main result -/

/-- What holds of an array after every sequence of operations: its sizes, and that growing keeps
the jobs `xs` that it holds. -/
structure JobArray.WithinArray (a : JobArray J) (xs : List J) : Prop where
  size_nonneg : 0 ≤ a.size
  size_le     : a.size ≤ a.capacity
  block       : a.capacity = a.jobs.length
  doubled     : ∃ k : ℕ, a.capacity = 10 * 2 ^ k
  int         : a.capacity < 2 ^ 31
  size_eq     : a.size = xs.length
  holds       : a.jobs.Holds xs
  grow        : a.size < QUEUE_LIMIT → ∃ a', a.grow = some a' ∧ a'.jobs.Holds xs ∧
    a'.size = a.size ∧ a'.size < a'.capacity

lemma JobQueue.Fits.withinArray {q : JobQueue J} {xs : List J} (hq : q.Fits xs) :
    q.toArray.WithinArray xs := by
  obtain ⟨hnonneg, hle, hblock, hdoubled⟩ := hq.size_le
  refine ⟨hnonneg, hle, hblock, hdoubled, ?_, congrArg Nat.cast hq.size_eq, hq.holds, ?_⟩
  · obtain ⟨k, hk, hcapacity⟩ := hq.doubled
    have hpow : 2 ^ k ≤ 2 ^ 27 := Nat.pow_le_pow_right (by omega) hk
    rw [JobQueue.toArray_capacity]
    omega
  · intro hlt
    have hlength : xs.length < QUEUE_LIMIT := by
      have hsize := hq.size_eq
      rw [JobQueue.toArray_size] at hlt
      omega
    obtain ⟨hgrow, hfits, hroom⟩ := hq.grow hlength
    refine ⟨_, hgrow, hfits.holds, ?_, ?_⟩
    · unfold JobQueue.grow
      split_ifs <;> rfl
    · have hsize := hfits.size_eq
      have hcapacity := hfits.capacity_eq
      rw [JobQueue.toArray_size, JobQueue.toArray_capacity]
      omega

/-- The queues stay within their arrays while fewer than `QUEUE_LIMIT` jobs are queued, and the
download queue is first in, first out. -/
theorem queues_within_arrays {U D : Type} (priority : U → P) (uploads : List (QueueOp U))
    (downloads : List (QueueOp D))
    (huploads : Along (JobArray.step (JobArray.enqueue priority)) JobArray.BelowLimit
      (JobQueue.init.toArray, []) uploads)
    (hdownloads : Along (JobArray.step JobArray.append) JobArray.BelowLimit
      (JobQueue.init.toArray, []) downloads) :
    (∃ a xs out, run (JobArray.step (JobArray.enqueue priority)) (JobQueue.init.toArray, []) uploads
        = some (a, out) ∧ a.WithinArray xs ∧ (out ++ xs).Perm (QueueOp.enqueued uploads)) ∧
      ∃ a xs out, run (JobArray.step JobArray.append) (JobQueue.init.toArray, []) downloads
        = some (a, out) ∧ a.WithinArray xs ∧ out ++ xs = QueueOp.enqueued downloads := by
  constructor
  · have hinsert : ∀ (q : JobQueue U) xs job, q.Fits xs → xs.length < QUEUE_LIMIT →
        ∃ q' : JobQueue U, q.toArray.enqueue priority job = some q'.toArray ∧
          q'.Fits (StableQueue.insert priority job xs) := by
      intro q xs job hq hlt
      obtain ⟨q', -, hq', hfits⟩ := hq.enqueue hlt priority job
      exact ⟨q', hq', hfits⟩
    obtain ⟨q, hrun, hq⟩ := JobArray.run_fits hinsert huploads
    exact ⟨_, _, _, hrun, hq.withinArray, QueueOp.onList_perm priority uploads⟩
  · have hinsert : ∀ (q : JobQueue D) xs job, q.Fits xs → xs.length < QUEUE_LIMIT →
        ∃ q' : JobQueue D, q.toArray.append job = some q'.toArray ∧ q'.Fits (xs ++ [job]) :=
      fun q xs job hq hlt => hq.append hlt job
    obtain ⟨q, hrun, hq⟩ := JobArray.run_fits (fun q xs job => hinsert q xs job) hdownloads
    exact ⟨_, _, _, hrun, hq.withinArray, QueueOp.onList_append downloads⟩

/-- An insertion adds one job, a removal takes one or none. -/
lemma JobArray.size_step {insert : JobArray J → J → Option (JobArray J)}
    (hinsert : ∀ a job a', insert a job = some a' → a'.size = a.size + 1)
    {s s' : JobArray J × List J} {op : QueueOp J} (h : JobArray.step insert s op = some s') :
    s'.1.size ≤ s.1.size + 1 := by
  obtain ⟨a, out⟩ := s
  cases op with
  | enqueue job =>
    obtain ⟨a', ha', rfl⟩ := Option.map_eq_some_iff.mp h
    exact (hinsert a job a' ha').le
  | dequeue =>
    simp only [JobArray.step] at h
    split_ifs at h
    · cases h
      omega
    · obtain ⟨⟨job, a'⟩, ha', rfl⟩ := Option.map_eq_some_iff.mp h
      simp only [JobArray.takeFirst, Option.bind_eq_bind, Option.bind_eq_some_iff] at ha'
      obtain ⟨_, -, _, -, heq⟩ := ha'
      cases heq
      dsimp only
      omega

/-- Fewer than `QUEUE_LIMIT` operations stay below the limit. -/
lemma JobArray.along_belowLimit {insert : JobArray J → J → Option (JobArray J)}
    (hinsert : ∀ a job a', insert a job = some a' → a'.size = a.size + 1) {ops : List (QueueOp J)}
    (hlen : ops.length ≤ QUEUE_LIMIT) :
    Along (JobArray.step insert) JobArray.BelowLimit (JobQueue.init.toArray, []) ops := by
  have hsize : ∀ {pre s}, run (JobArray.step insert) (JobQueue.init.toArray, []) pre = some s →
      s.1.size ≤ pre.length := by
    intro pre s hrun
    refine run_induction (P := fun pre s => s.1.size ≤ (pre.length : ℤ)) le_rfl ?_ hrun
    intro pre op s t _ hstep ih
    have hle := JobArray.size_step hinsert hstep
    rw [List.length_append, List.length_singleton]
    push_cast
    omega
  intro pre op s hpre hrun
  have hlt := hpre.length_le
  have hle := hsize hrun
  rw [List.length_append, List.length_singleton] at hlt
  cases op with
  | enqueue job =>
    change s.1.size < QUEUE_LIMIT
    omega
  | dequeue => trivial

lemma eq_of_int {x y : ℤ} (h : int x = some y) : y = x := by
  unfold int at h
  split_ifs at h
  exact (Option.some.inj h).symm

lemma JobArray.size_grow {a a' : JobArray J} (h : a.grow = some a') : a'.size = a.size := by
  unfold JobArray.grow at h
  split_ifs at h
  · obtain ⟨capacity, -, heq⟩ := Option.bind_eq_some_iff.mp h
    cases heq
    rfl
  · cases h
    rfl

lemma JobArray.size_enqueue {priority : J → P} {a a' : JobArray J} {job : J}
    (h : a.enqueue priority job = some a') : a'.size = a.size + 1 := by
  simp only [JobArray.enqueue, Option.bind_eq_bind, Option.bind_eq_some_iff] at h
  obtain ⟨b, hb, m, -, m', -, size, hsize, heq⟩ := h
  cases heq
  rw [← JobArray.size_grow hb]
  exact eq_of_int hsize

lemma JobArray.size_append {a a' : JobArray J} {job : J} (h : a.append job = some a') :
    a'.size = a.size + 1 := by
  simp only [JobArray.append, Option.bind_eq_bind, Option.bind_eq_some_iff] at h
  obtain ⟨b, hb, m, -, size, hsize, heq⟩ := h
  cases heq
  rw [← JobArray.size_grow hb]
  exact eq_of_int hsize

/-- Twelve jobs, each before all others in the upload queue; the arrays grow at the eleventh. -/
theorem queues_within_arrays_twelve :
    let ops : List (QueueOp ℕ) := (List.range 12).map .enqueue ++ [.dequeue, .dequeue]
    (∃ a xs out, run (JobArray.step (JobArray.enqueue id)) (JobQueue.init.toArray, []) ops
        = some (a, out) ∧ a.WithinArray xs ∧ (out ++ xs).Perm (List.range 12)) ∧
      ∃ a xs out, run (JobArray.step JobArray.append) (JobQueue.init.toArray, []) ops
        = some (a, out) ∧ a.WithinArray xs ∧ out ++ xs = List.range 12 :=
  queues_within_arrays id _ _
    (JobArray.along_belowLimit (fun _ _ _ => JobArray.size_enqueue) (by decide))
    (JobArray.along_belowLimit (fun _ _ _ => JobArray.size_append) (by decide))

end Pcd
