import PcdProject.Core.CBuffer
import PcdProject.Core.Ring
import PcdProject.Core.Transition
import PcdProject.Protocol.Messages

/-!
# The log queue

`log_queue.c`: a ring of 100 entries of 512 bytes. A push into the full ring overwrites the oldest
entry. `Represents` relates the ring to the list of the strings that wait, on which the two
operations are `Ring.push` and the removal of the head.
-/

namespace Pcd

open Transition

def LOG_QUEUE_SIZE : ℕ := 100
def LOG_ENTRY_MAX : ℕ := 512

abbrev LogEntry := Vector UInt8 LOG_ENTRY_MAX

structure LogQueue where
  entries : Vector LogEntry LOG_QUEUE_SIZE
  head : ℤ
  tail : ℤ
  count : ℤ

/-- What `pthread_cond_wait` or `pthread_cond_timedwait` returns. -/
inductive WaitResult where
  | woken
  | timedOut
  | failed
  deriving DecidableEq

/-- What `log_queue_pop_timed` returns, 1 with the contents of the caller's buffer, 0 or -1. -/
inductive PopResult where
  | entry (buffer : LogEntry)
  | timeout
  | error

namespace LogQueue

/-- `log_queue_init` -/
def init (q : LogQueue) : LogQueue := { q with head := 0, tail := 0, count := 0 }

/-- Make room in a full queue by giving up the oldest entry. -/
def dropOldest (q : LogQueue) : LogQueue :=
  if q.count = LOG_QUEUE_SIZE then
    { q with head := (q.head + 1).tmod LOG_QUEUE_SIZE, count := q.count - 1 }
  else q

/-- Write an entry at the tail; `none` is a store outside of the array. -/
def append (q : LogQueue) (entry : CString) : Option LogQueue :=
  if h : 0 ≤ q.tail ∧ q.tail < LOG_QUEUE_SIZE then
    have hi : q.tail.toNat < LOG_QUEUE_SIZE := by omega
    let row := CBuffer.copyTruncated q.entries[q.tail.toNat] entry.bytes (by decide)
    some { q with
      entries := q.entries.set q.tail.toNat row
      tail := (q.tail + 1).tmod LOG_QUEUE_SIZE
      count := q.count + 1 }
  else none

/-- `log_queue_push` -/
def push (q : LogQueue) (entry : CString) : Option LogQueue := q.dropOldest.append entry

/-- One turn of the loop of `log_queue_pop_timed`, `ret` being the result of the wait if there is
one. The call goes on with another turn if there is no result; `none` is a load outside of the
array. -/
def popTimed (q : LogQueue) (buffer : LogEntry) (timeoutMs : ℤ) (ret : WaitResult) :
    Option (LogQueue × Option PopResult) :=
  if q.count = 0 then
    match ret with
    | .timedOut => some (q, some (if timeoutMs < 0 then .error else .timeout))
    | .failed   => some (q, some .error)
    | .woken    => some (q, none)
  else if h : 0 ≤ q.head ∧ q.head < LOG_QUEUE_SIZE then
    have hi : q.head.toNat < LOG_QUEUE_SIZE := by omega
    let entry := CBuffer.string q.entries[q.head.toNat]
    some ({ q with head := (q.head + 1).tmod LOG_QUEUE_SIZE, count := q.count - 1 },
      some (.entry (CBuffer.strncpy buffer entry LOG_ENTRY_MAX)))
  else none

/-- The ring is well formed, and the strings `xs` wait in it. -/
def Represents (q : LogQueue) (xs : List Bytes) : Prop :=
  ∃ head : ℕ, head < LOG_QUEUE_SIZE ∧ q.head = head ∧ q.count = xs.length ∧
    q.tail = ((head + xs.length) % LOG_QUEUE_SIZE : ℕ) ∧
    Ring.Holds (q.entries.map CBuffer.string) head xs ∧
    ∀ x ∈ xs, 0 ∉ x ∧ x.length < LOG_ENTRY_MAX

variable {q : LogQueue} {x : Bytes} {xs : List Bytes}

lemma represents_init (q : LogQueue) : q.init.Represents [] :=
  ⟨0, by decide, rfl, rfl, rfl, Ring.holds_nil, by simp⟩

lemma Represents.length_le (h : q.Represents xs) : xs.length ≤ LOG_QUEUE_SIZE :=
  h.choose_spec.2.2.2.2.1.length_le

lemma Represents.count_eq (h : q.Represents xs) : q.count = xs.length := h.choose_spec.2.2.1

lemma Represents.length_lt (h : q.Represents xs) : ∀ x ∈ xs, x.length < LOG_ENTRY_MAX :=
  fun x hx => (h.choose_spec.2.2.2.2.2 x hx).2

/-- An index that is moved on stays in the array. -/
lemma tmod_next (i : ℕ) :
    ((i : ℤ) + 1).tmod LOG_QUEUE_SIZE = ((i + 1) % LOG_QUEUE_SIZE : ℕ) := by
  rw [Int.tmod_eq_emod_of_nonneg (by omega)]
  rfl

/-- The head moves on over the oldest entry. -/
lemma Represents.moveHead (h : q.Represents (x :: xs)) :
    Represents { q with head := (q.head + 1).tmod LOG_QUEUE_SIZE, count := q.count - 1 } xs := by
  obtain ⟨head, hlt, hhead, hcount, htail, hring, hstr⟩ := h
  refine ⟨(head + 1) % LOG_QUEUE_SIZE, Nat.mod_lt _ (by decide), ?_, ?_, ?_, hring.pop, ?_⟩
  · rw [hhead, tmod_next]
  · simp only [hcount, List.length_cons]
    omega
  · rw [htail, List.length_cons, Nat.mod_add_mod]
    congr 2
    omega
  · intro y hy
    exact hstr y (by simp [hy])

/-- There is a free cell behind the entries that are left. -/
lemma Represents.dropOldest (h : q.Represents xs) :
    ∃ ys, q.dropOldest.Represents ys ∧ ys.length < LOG_QUEUE_SIZE ∧
      ∀ y, Ring.push LOG_QUEUE_SIZE xs y = ys ++ [y] := by
  have hle : xs.length ≤ LOG_QUEUE_SIZE := h.choose_spec.2.2.2.2.1.length_le
  have hcount : q.count = xs.length := h.choose_spec.2.2.1
  unfold LogQueue.dropOldest
  split_ifs with hfull
  · cases xs with
    | nil => simp [LOG_QUEUE_SIZE, hcount] at hfull
    | cons x xs =>
      rw [List.length_cons] at hle hcount
      refine ⟨xs, h.moveHead, hle, ?_⟩
      intro y
      have hlong : LOG_QUEUE_SIZE < (x :: xs ++ [y]).length := by
        simp only [List.length_append, List.length_cons, List.length_nil]
        omega
      rw [Ring.push, if_pos hlong]
      rfl
  · refine ⟨xs, h, by omega, ?_⟩
    intro y
    have hfits : ¬ LOG_QUEUE_SIZE < (xs ++ [y]).length := by
      simp only [List.length_append, List.length_cons, List.length_nil]
      omega
    rw [Ring.push, if_neg hfits]

lemma Represents.append (h : q.Represents xs) (hroom : xs.length < LOG_QUEUE_SIZE)
    (entry : CString) :
    ∃ q', q.append entry = some q' ∧
      q'.Represents (xs ++ [entry.bytes.take (LOG_ENTRY_MAX - 1)]) := by
  obtain ⟨head, hlt, hhead, hcount, htail, hring, hstr⟩ := h
  have hi : (head + xs.length) % LOG_QUEUE_SIZE < LOG_QUEUE_SIZE := Nat.mod_lt _ (by decide)
  have hbound : 0 ≤ q.tail ∧ q.tail < LOG_QUEUE_SIZE := by omega
  have hnat : q.tail.toNat = (head + xs.length) % LOG_QUEUE_SIZE := by omega
  refine ⟨_, dif_pos hbound, head, hlt, hhead, ?_, ?_, ?_, ?_⟩
  · simp only [hcount, List.length_append, List.length_singleton]
    omega
  · have hnext : (q.tail + 1).tmod LOG_QUEUE_SIZE
        = ((head + xs.length + 1) % LOG_QUEUE_SIZE : ℕ) := by
      rw [htail, tmod_next, Nat.mod_add_mod]
    rw [List.length_append, List.length_singleton, ← Nat.add_assoc]
    exact hnext
  · have hset := hring.push hroom (entry.bytes.take (LOG_ENTRY_MAX - 1)) hi
    simp only [hnat, Vector.map_set, CBuffer.string_copyTruncated entry.notMem]
    exact hset
  · intro y hy
    rcases List.mem_append.mp hy with hy | hy
    · exact hstr y hy
    · rw [List.mem_singleton.mp hy]
      refine ⟨fun h => entry.notMem (List.mem_of_mem_take h), ?_⟩
      rw [List.length_take]
      unfold LOG_ENTRY_MAX
      omega

lemma Represents.push (h : q.Represents xs) (entry : CString) :
    ∃ q', q.push entry = some q' ∧
      q'.Represents (Ring.push LOG_QUEUE_SIZE xs (entry.bytes.take (LOG_ENTRY_MAX - 1))) := by
  obtain ⟨ys, hys, hroom, hpush⟩ := h.dropOldest
  rw [hpush]
  exact hys.append hroom entry

lemma Represents.popTimed_cons (h : q.Represents (x :: xs)) (buffer : LogEntry) (timeoutMs : ℤ)
    (ret : WaitResult) :
    ∃ q' buffer', q.popTimed buffer timeoutMs ret = some (q', some (.entry buffer')) ∧
      CBuffer.string buffer' = x ∧ q'.Represents xs := by
  have hmoved := h.moveHead
  obtain ⟨head, hlt, hhead, hcount, htail, hring, hstr⟩ := h
  have hbound : 0 ≤ q.head ∧ q.head < LOG_QUEUE_SIZE := by omega
  have hnat : q.head.toNat = head := by omega
  have hne : q.count ≠ 0 := by
    simp only [hcount, List.length_cons]
    omega
  have hentry : CBuffer.string (q.entries.get ⟨head, hlt⟩) = x := by
    have hfront := hring.front hlt
    rw [Vector.getElem?_map, Vector.getElem?_eq_getElem hlt] at hfront
    exact Option.some.inj hfront
  obtain ⟨hzero, hlen⟩ := hstr x (by simp)
  refine ⟨_, CBuffer.strncpy buffer x LOG_ENTRY_MAX, ?_, ?_, hmoved⟩
  · unfold LogQueue.popTimed
    rw [if_neg hne, dif_pos hbound]
    simp only [hnat]
    rw [show q.entries[head] = q.entries.get ⟨head, hlt⟩ from rfl, hentry]
  · exact CBuffer.string_strncpy hzero le_rfl hlen

lemma Represents.popTimed_nil (h : q.Represents []) (buffer : LogEntry) (timeoutMs : ℤ)
    (ret : WaitResult) :
    ∃ res, q.popTimed buffer timeoutMs ret = some (q, res) ∧
      ∀ buffer', res ≠ some (.entry buffer') := by
  have hcount : q.count = 0 := h.choose_spec.2.2.1
  unfold LogQueue.popTimed
  rw [if_pos hcount]
  cases ret with
  | woken => exact ⟨none, rfl, by simp⟩
  | failed => exact ⟨some .error, rfl, by simp⟩
  | timedOut =>
    refine ⟨_, rfl, ?_⟩
    intro buffer'
    split_ifs <;> simp

end LogQueue

/-! ### Sequences of operations -/

/-- The calls, a call of `log_queue_pop_timed` being one operation for each turn of its loop. -/
inductive LogOp where
  | push (entry : CString)
  | pop (buffer : LogEntry) (timeoutMs : ℤ) (ret : WaitResult)

/-- The string of an entry that was handed out. -/
def PopResult.string : PopResult → List Bytes
  | .entry buffer => [CBuffer.string buffer]
  | .timeout      => []
  | .error        => []

/-- An operation on the ring, together with the strings that successful pops returned so far. -/
def LogOp.step : LogQueue × List Bytes → LogOp → Option (LogQueue × List Bytes)
  | (q, out), .push entry => (q.push entry).map fun q => (q, out)
  | (q, out), .pop buffer timeoutMs ret =>
    (q.popTimed buffer timeoutMs ret).map fun (q, res) => (q, out ++ res.elim [] PopResult.string)

/-- What the queue is for: the strings that wait, and those that were popped. -/
structure LogService where
  waiting : List Bytes
  popped : List Bytes

def LogService.step (r : LogService) : LogOp → LogService
  | .push entry =>
    { r with waiting := Ring.push LOG_QUEUE_SIZE r.waiting (entry.bytes.take (LOG_ENTRY_MAX - 1)) }
  | .pop _ _ _ =>
    match r.waiting with
    | []      => r
    | x :: xs => ⟨xs, r.popped ++ [x]⟩

def LogService.run (ops : List LogOp) : LogService := ops.foldl LogService.step ⟨[], []⟩

/-- The strings that were pushed, cut to the size of an entry. -/
def LogOp.pushed (ops : List LogOp) : List Bytes :=
  ops.filterMap fun
    | .push entry => some (entry.bytes.take (LOG_ENTRY_MAX - 1))
    | .pop _ _ _  => none

lemma LogOp.step_refines {q : LogQueue} {r : LogService} (op : LogOp)
    (hq : q.Represents r.waiting) :
    ∃ q', LogOp.step (q, r.popped) op = some (q', (r.step op).popped) ∧
      q'.Represents (r.step op).waiting := by
  obtain ⟨waiting, popped⟩ := r
  cases op with
  | push entry =>
    obtain ⟨q', hpush, hq'⟩ := hq.push entry
    exact ⟨q', by simp [LogOp.step, hpush, LogService.step], hq'⟩
  | pop buffer timeoutMs ret =>
    cases waiting with
    | nil =>
      obtain ⟨res, hpop, hres⟩ := hq.popTimed_nil buffer timeoutMs ret
      refine ⟨q, ?_, hq⟩
      have hout : res.elim [] PopResult.string = [] := by
        rcases res with _ | ⟨buffer'⟩ | _ | _
        · rfl
        · exact absurd rfl (hres buffer')
        · rfl
        · rfl
      simp [LogOp.step, hpop, hout, LogService.step]
    | cons x xs =>
      obtain ⟨q', buffer', hpop, hstring, hq'⟩ := hq.popTimed_cons buffer timeoutMs ret
      exact ⟨q', by simp [LogOp.step, hpop, PopResult.string, hstring, LogService.step], hq'⟩

/-- The ring never faults, and hands out what the service does. -/
lemma LogOp.run_refines (q : LogQueue) (ops : List LogOp) :
    ∃ t, run LogOp.step (q.init, []) ops = some (t, (LogService.run ops).popped) ∧
      t.Represents (LogService.run ops).waiting := by
  induction ops using List.reverseRecOn with
  | nil => exact ⟨q.init, rfl, LogQueue.represents_init q⟩
  | append_singleton ops op ih =>
    obtain ⟨t, hrun, ht⟩ := ih
    obtain ⟨u, hstep, hu⟩ := LogOp.step_refines op ht
    have hconcat : LogService.run (ops ++ [op]) = (LogService.run ops).step op := by
      simp [LogService.run]
    rw [hconcat]
    exact ⟨u, run_concat_eq_some.mpr ⟨_, hrun, hstep⟩, hu⟩

/-- The strings that wait are the last ones pushed, and those that were popped are older and come
in the order of their pushes. -/
lemma LogService.pushed_eq (ops : List LogOp) :
    ∃ past, LogOp.pushed ops = past ++ (run ops).waiting ∧ (run ops).popped.Sublist past := by
  induction ops using List.reverseRecOn with
  | nil => exact ⟨[], rfl, List.nil_sublist _⟩
  | append_singleton ops op ih =>
    obtain ⟨past, hpushed, hpopped⟩ := ih
    have hconcat : run (ops ++ [op]) = (run ops).step op := by simp [run]
    rw [hconcat]
    generalize run ops = r at *
    obtain ⟨waiting, popped⟩ := r
    cases op with
    | push entry =>
      have hnew : LogOp.pushed (ops ++ [.push entry])
          = past ++ (waiting ++ [entry.bytes.take (LOG_ENTRY_MAX - 1)]) := by
        rw [← List.append_assoc, ← hpushed]
        simp [LogOp.pushed]
      rw [hnew]
      simp only [step, Ring.push]
      split_ifs with hfull
      · -- the oldest string that waits is lost
        cases hw : waiting ++ [entry.bytes.take (LOG_ENTRY_MAX - 1)] with
        | nil => simp at hw
        | cons x xs => exact ⟨past ++ [x], by simp, hpopped.trans (List.sublist_append_left _ _)⟩
      · exact ⟨past, rfl, hpopped⟩
    | pop buffer timeoutMs ret =>
      have hsame : LogOp.pushed (ops ++ [.pop buffer timeoutMs ret]) = LogOp.pushed ops := by
        simp [LogOp.pushed]
      rw [hsame, hpushed]
      cases waiting with
      | nil => exact ⟨past, rfl, hpopped⟩
      | cons x xs => exact ⟨past ++ [x], by simp [step], hpopped.append_right [x]⟩

/-- The log queue is a bounded queue: after any sequence of operations the indices are in the
array and `tail` is `count` entries behind `head`; the pops returned what they return from a list
that gives up its oldest string when a push makes it longer than 100; so they returned strings in
the order of the pushes, and only strings older than all that wait were lost. -/
theorem logQueue_refines (q : LogQueue) (ops : List LogOp) :
    ∃ t out, run LogOp.step (q.init, []) ops = some (t, out) ∧
      0 ≤ t.head ∧ t.head < LOG_QUEUE_SIZE ∧ 0 ≤ t.tail ∧ t.tail < LOG_QUEUE_SIZE ∧
      0 ≤ t.count ∧ t.count ≤ LOG_QUEUE_SIZE ∧
      t.tail = (t.head + t.count) % LOG_QUEUE_SIZE ∧
      out = (LogService.run ops).popped ∧ t.count = (LogService.run ops).waiting.length ∧
      ∃ past, LogOp.pushed ops = past ++ (LogService.run ops).waiting ∧ out.Sublist past := by
  obtain ⟨t, hrun, head, hlt, hhead, hcount, htail, hring, -⟩ := LogOp.run_refines q ops
  have hle := hring.length_le
  have hmod := Nat.mod_lt (head + (LogService.run ops).waiting.length)
    (show 0 < LOG_QUEUE_SIZE by decide)
  refine ⟨t, _, hrun, by omega, by omega, by omega, by omega, by omega, by omega, ?_, rfl, hcount,
    LogService.pushed_eq ops⟩
  rw [htail, hhead, hcount]
  rfl

end Pcd
