import PcdProject.Network.WholeUpload

/-!
# The receive loop with its counters

The loop of `process_upload` call by call, `bytes_remaining` and `total_received` being unsigned
64-bit numbers. What `recv` and `write` return is part of the call; `recv` may end the stream at any
point.
-/

namespace Pcd

open Transition

inductive ReceivePhase where
  | receiving
  | writing (chunk : Bytes)
  | left
  deriving DecidableEq

/-- The loop with what is still to come on the connection, what `recv` has returned so far and what
is in the file. It is left before the announced size in the phase `left` only. -/
structure UploadReceive where
  stream : Bytes
  received : Bytes
  file : Bytes
  bytesRemaining : UInt64
  totalReceived : UInt64
  phase : ReceivePhase
  deriving DecidableEq

/-- A call of the loop with its result, `none` for -1. -/
inductive ReceiveCall where
  | recv (result : Option ℕ)
  | write (result : Option ℕ)

/-- Each iteration begins with a `recv`. -/
def ReceiveCall.isRecv : ReceiveCall → Bool
  | .recv _  => true
  | .write _ => false

namespace UploadReceive

def init (stream : Bytes) (fileSize : UInt64) : UploadReceive where
  stream := stream
  received := []
  file := []
  bytesRemaining := fileSize
  totalReceived := 0
  phase := .receiving

/-- `to_read` of the next iteration. -/
def toRead (r : UploadReceive) : UInt64 :=
  if r.bytesRemaining > UInt64.ofNat CHUNK_SIZE then UInt64.ofNat CHUNK_SIZE else r.bytesRemaining

/-- A call of the loop; `none` if it is not at this call or the call does not return this. -/
def step (r : UploadReceive) (c : ReceiveCall) : Option UploadReceive :=
  match r.phase, c with
  | .receiving, .recv result =>
    if r.bytesRemaining > 0 then
      match result.getD 0 with
      | 0     => some { r with phase := .left }
      | n + 1 =>
        if n + 1 ≤ r.toRead.toNat ∧ n + 1 ≤ r.stream.length then
          some { r with
            stream := r.stream.drop (n + 1)
            received := r.received ++ r.stream.take (n + 1)
            phase := .writing (r.stream.take (n + 1)) }
        else none
    else none
  | .writing _, .write none => some { r with phase := .left }
  | .writing chunk, .write (some written) =>
    if written = chunk.length then
      some { r with
        file := r.file ++ chunk
        bytesRemaining := r.bytesRemaining - UInt64.ofNat chunk.length
        totalReceived := r.totalReceived + UInt64.ofNat chunk.length
        phase := .receiving }
    else if written < chunk.length then
      some { r with file := r.file ++ chunk.take written, phase := .left }
    else none
  | _, _ => none

/-- The loop is over, at its condition or by one of its `break`s. -/
def Over (r : UploadReceive) : Prop :=
  r.phase = .left ∨ r.phase = .receiving ∧ r.bytesRemaining = 0

/-- What is in `buffer` between `recv` and `write`. -/
def pending (r : UploadReceive) : Bytes :=
  match r.phase with
  | .writing chunk => chunk
  | _              => []

end UploadReceive

/-! ### What a call changes -/

inductive UploadReceiveRule (r : UploadReceive) : ReceiveCall → UploadReceive → Prop where
  | recvEnd (result : Option ℕ) (hphase : r.phase = .receiving) (hpos : 0 < r.bytesRemaining)
      (hzero : result.getD 0 = 0) :
      UploadReceiveRule r (.recv result) { r with phase := .left }
  | recv (n : ℕ) (hphase : r.phase = .receiving) (hpos : 0 < r.bytesRemaining) (hn : 0 < n)
      (hread : n ≤ r.toRead.toNat) (hstream : n ≤ r.stream.length) :
      UploadReceiveRule r (.recv (some n))
        { r with
          stream := r.stream.drop n
          received := r.received ++ r.stream.take n
          phase := .writing (r.stream.take n) }
  | writeFail (chunk : Bytes) (hphase : r.phase = .writing chunk) :
      UploadReceiveRule r (.write none) { r with phase := .left }
  | writeShort (chunk : Bytes) (written : ℕ) (hphase : r.phase = .writing chunk)
      (hlt : written < chunk.length) :
      UploadReceiveRule r (.write (some written))
        { r with file := r.file ++ chunk.take written, phase := .left }
  | write (chunk : Bytes) (hphase : r.phase = .writing chunk) :
      UploadReceiveRule r (.write (some chunk.length))
        { r with
          file := r.file ++ chunk
          bytesRemaining := r.bytesRemaining - UInt64.ofNat chunk.length
          totalReceived := r.totalReceived + UInt64.ofNat chunk.length
          phase := .receiving }

lemma UploadReceiveRule.of_step {r r' : UploadReceive} {c : ReceiveCall}
    (h : r.step c = some r') : UploadReceiveRule r c r' := by
  unfold UploadReceive.step at h
  split at h
  · rename_i result hphase
    split_ifs at h with hpos
    split at h
    · rename_i hzero
      cases h
      exact .recvEnd result hphase hpos hzero
    · rename_i n hresult
      split_ifs at h with hguard
      cases h
      have heq : result = some (n + 1) := by
        cases result with
        | none => cases hresult
        | some m => exact congrArg some hresult
      subst heq
      exact .recv (n + 1) hphase hpos n.succ_pos hguard.1 hguard.2
  · rename_i chunk hphase
    cases h
    exact .writeFail chunk hphase
  · rename_i chunk written hphase
    split_ifs at h with hall hlt
    · cases h
      subst hall
      exact .write chunk hphase
    · cases h
      exact .writeShort chunk written hphase hlt
  · cases h

section UploadReceive

variable {r r' : UploadReceive} {c : ReceiveCall} {calls : List ReceiveCall} {stream : Bytes}
variable {fileSize : UInt64}

/-! ### The loop invariant -/

/-- `recv` is asked for what is missing at most, and never for more than `buffer` holds. -/
lemma UploadReceive.toNat_toRead (r : UploadReceive) :
    r.toRead.toNat = min CHUNK_SIZE r.bytesRemaining.toNat := by
  unfold toRead
  split_ifs with hlt
  · have hlt' := UInt64.lt_iff_toNat_lt.mp hlt
    exact (Nat.min_eq_left (Nat.le_of_lt hlt')).symm
  · have hle := UInt64.le_iff_toNat_le.mp (UInt64.not_lt.mp hlt)
    exact (Nat.min_eq_right hle).symm

/-- The file, the counters and the position in the stream after the calls. -/
structure ReceiveExact (stream : Bytes) (fileSize : UInt64) (calls : List ReceiveCall)
    (r : UploadReceive) : Prop where
  counters   : r.bytesRemaining.toNat + r.totalReceived.toNat = fileSize.toNat
  stream     : r.received ++ r.stream = stream
  file       : r.file <+: r.received
  written    : r.phase ≠ .left → r.file ++ r.pending = r.received
  total      : r.phase ≠ .left → r.file.length = r.totalReceived.toNat
  size       : r.received.length ≤ fileSize.toNat
  pending    : r.pending.length ≤ min CHUNK_SIZE r.bytesRemaining.toNat
  chunk      : ∀ chunk, r.phase = .writing chunk → 0 < chunk.length
  inside     : r.phase ≠ .receiving → 0 < r.bytesRemaining.toNat
  iterations : calls.countP ReceiveCall.isRecv ≤
    r.totalReceived.toNat + if r.phase = .receiving then 0 else 1

lemma receiveExact_init : ReceiveExact stream fileSize [] (.init stream fileSize) where
  counters := Nat.add_zero _
  stream := rfl
  file := List.prefix_refl _
  written _ := rfl
  total _ := rfl
  size := Nat.zero_le _
  pending := Nat.zero_le _
  chunk := by rintro _ ⟨⟩
  inside h := absurd rfl h
  iterations := Nat.zero_le _

/-- Neither counter wraps around when a chunk is accounted for. -/
lemma ReceiveExact.toNat_write (hr : ReceiveExact stream fileSize calls r) {chunk : Bytes}
    (hphase : r.phase = .writing chunk) :
    chunk.length ≤ r.bytesRemaining.toNat ∧
      (r.bytesRemaining - UInt64.ofNat chunk.length).toNat
        = r.bytesRemaining.toNat - chunk.length ∧
      (r.totalReceived + UInt64.ofNat chunk.length).toNat
        = r.totalReceived.toNat + chunk.length := by
  have hle : chunk.length ≤ r.bytesRemaining.toNat := by
    have hpending := hr.pending
    rw [UploadReceive.pending, hphase] at hpending
    exact (le_min_iff.mp hpending).2
  have hsize := fileSize.toNat_lt
  have hcounters := hr.counters
  have hchunk : (UInt64.ofNat chunk.length).toNat = chunk.length :=
    UInt64.toNat_ofNat_of_lt (by simp only [UInt64.size]; omega)
  refine ⟨hle, ?_, ?_⟩
  · rw [UInt64.toNat_sub_of_le, hchunk]
    rwa [UInt64.le_iff_toNat_le, hchunk]
  · rw [UInt64.toNat_add, hchunk, Nat.mod_eq_of_lt]
    omega

/-- A `break`, the file then holding `file`. -/
lemma ReceiveExact.leave (hr : ReceiveExact stream fileSize calls r) {file : Bytes}
    (hfile : file <+: r.received) (hinside : 0 < r.bytesRemaining.toNat)
    (hcount : (calls ++ [c]).countP ReceiveCall.isRecv ≤ r.totalReceived.toNat + 1) :
    ReceiveExact stream fileSize (calls ++ [c]) { r with file := file, phase := .left } where
  counters := hr.counters
  stream := hr.stream
  file := hfile
  written := absurd rfl
  total := absurd rfl
  size := hr.size
  pending := Nat.zero_le _
  chunk := by rintro _ ⟨⟩
  inside _ := hinside
  iterations := hcount

/-- A `recv` of `n` bytes. -/
lemma ReceiveExact.recv (hr : ReceiveExact stream fileSize calls r) {n : ℕ}
    (hphase : r.phase = .receiving) (hpos : 0 < r.bytesRemaining) (hn : 0 < n)
    (hread : n ≤ r.toRead.toNat) (hstream : n ≤ r.stream.length) :
    ReceiveExact stream fileSize (calls ++ [.recv (some n)])
      { r with
        stream := r.stream.drop n
        received := r.received ++ r.stream.take n
        phase := .writing (r.stream.take n) } := by
  have hleft : r.phase ≠ .left := by simp [hphase]
  have hfile : r.file = r.received := by
    have hwritten := hr.written hleft
    rwa [UploadReceive.pending, hphase, List.append_nil] at hwritten
  have htake : (r.stream.take n).length = n := List.length_take_of_le hstream
  have hle : n ≤ min CHUNK_SIZE r.bytesRemaining.toNat := hread.trans_eq r.toNat_toRead
  have hcount := hr.iterations
  rw [if_pos hphase] at hcount
  have hsize : (r.received ++ r.stream.take n).length ≤ fileSize.toNat := by
    have hcounters := hr.counters
    have hremaining := (le_min_iff.mp hle).2
    rw [List.length_append, htake, ← hfile, hr.total hleft]
    omega
  exact {
    counters := hr.counters
    stream := by rw [List.append_assoc, List.take_append_drop, hr.stream]
    file := hr.file.trans (List.prefix_append _ _)
    written := fun _ => congrArg (· ++ r.stream.take n) hfile
    total := fun _ => hr.total hleft
    size := hsize
    pending := htake.trans_le hle
    chunk := by
      rintro chunk ⟨⟩
      rwa [htake]
    inside := fun _ => UInt64.lt_iff_toNat_lt.mp hpos
    iterations := by
      rw [List.countP_append]
      exact Nat.add_le_add_right hcount 1 }

/-- A `write` of the whole chunk. -/
lemma ReceiveExact.write (hr : ReceiveExact stream fileSize calls r) {chunk : Bytes}
    (hphase : r.phase = .writing chunk) :
    ReceiveExact stream fileSize (calls ++ [.write (some chunk.length)])
      { r with
        file := r.file ++ chunk
        bytesRemaining := r.bytesRemaining - UInt64.ofNat chunk.length
        totalReceived := r.totalReceived + UInt64.ofNat chunk.length
        phase := .receiving } := by
  obtain ⟨hle, hremaining, htotal⟩ := hr.toNat_write hphase
  have hleft : r.phase ≠ .left := by simp [hphase]
  have hwritten := hr.written hleft
  have hcount := hr.iterations
  rw [UploadReceive.pending, hphase] at hwritten
  rw [if_neg (by simp [hphase])] at hcount
  have hcounters : (r.bytesRemaining - UInt64.ofNat chunk.length).toNat
      + (r.totalReceived + UInt64.ofNat chunk.length).toNat = fileSize.toNat := by
    have hcounters := hr.counters
    rw [hremaining, htotal]
    omega
  exact {
    counters := hcounters
    stream := hr.stream
    file := by rw [hwritten]
    written := fun _ => (List.append_nil _).trans hwritten
    total := fun _ => by rw [htotal, List.length_append, hr.total hleft]
    size := hr.size
    pending := Nat.zero_le _
    chunk := by rintro _ ⟨⟩
    inside := absurd rfl
    iterations := by
      rw [List.countP_append, htotal]
      exact hcount.trans (Nat.add_le_add_left (hr.chunk chunk hphase) _) }

lemma ReceiveExact.step (hr : ReceiveExact stream fileSize calls r) (h : r.step c = some r') :
    ReceiveExact stream fileSize (calls ++ [c]) r' := by
  have hcount := hr.iterations
  cases UploadReceiveRule.of_step h with
  | recvEnd result hphase hpos hzero =>
    rw [if_pos hphase] at hcount
    apply hr.leave hr.file (UInt64.lt_iff_toNat_lt.mp hpos)
    rw [List.countP_append]
    exact Nat.add_le_add_right hcount 1
  | recv n hphase hpos hn hread hstream => exact hr.recv hphase hpos hn hread hstream
  | writeFail chunk hphase =>
    rw [if_neg (by simp [hphase])] at hcount
    apply hr.leave hr.file (hr.inside (by simp [hphase]))
    rwa [List.countP_append]
  | writeShort chunk written hphase hlt =>
    have hwritten := hr.written (by simp [hphase])
    rw [UploadReceive.pending, hphase] at hwritten
    rw [if_neg (by simp [hphase])] at hcount
    refine hr.leave ?_ (hr.inside (by simp [hphase])) ?_
    · rw [← hwritten]
      exact (List.prefix_append_right_inj _).mpr (List.take_prefix _ _)
    · rwa [List.countP_append]
  | write chunk hphase => exact hr.write hphase

lemma ReceiveExact.of_run (h : run UploadReceive.step (.init stream fileSize) calls = some r) :
    ReceiveExact stream fileSize calls r :=
  run_induction receiveExact_init (fun _ _ _ _ _ h hr => hr.step h) h

/-! ### How the loop ends -/

/-- There is a next call until the loop is over. -/
lemma UploadReceive.over_iff (r : UploadReceive) : r.Over ↔ ∀ c, r.step c = none := by
  constructor
  · rintro (hleft | ⟨hphase, hzero⟩) c
    · cases c <;> simp [UploadReceive.step, hleft]
    · cases c <;> simp [UploadReceive.step, hphase, hzero]
  · intro hnone
    cases hphase : r.phase with
    | receiving =>
      refine .inr ⟨hphase, ?_⟩
      by_contra hne
      have hrecv := hnone (.recv none)
      simp [UploadReceive.step, hphase, UInt64.pos_iff_ne_zero.mpr hne] at hrecv
    | writing chunk =>
      have hwrite := hnone (.write none)
      simp [UploadReceive.step, hphase] at hwrite
    | left => exact .inl hphase

/-- No result of the calls other than -1, the end and what was asked for is left out. -/
lemma UploadReceive.isSome_recv (hphase : r.phase = .receiving) (hpos : 0 < r.bytesRemaining)
    {result : Option ℕ} (hread : result.getD 0 ≤ r.toRead.toNat)
    (hstream : result.getD 0 ≤ r.stream.length) : (r.step (.recv result)).isSome := by
  cases hn : result.getD 0 with
  | zero => simp [UploadReceive.step, hphase, hpos, hn]
  | succ n =>
    rw [hn] at hread hstream
    simp [UploadReceive.step, hphase, hpos, hn, hread, hstream]

lemma UploadReceive.step_write {chunk : Bytes} (hphase : r.phase = .writing chunk) :
    r.step (.write (some chunk.length)) = some { r with
      file := r.file ++ chunk
      bytesRemaining := r.bytesRemaining - UInt64.ofNat chunk.length
      totalReceived := r.totalReceived + UInt64.ofNat chunk.length
      phase := .receiving } := by
  simp [UploadReceive.step, hphase]

lemma ReceiveExact.iterations_le (hr : ReceiveExact stream fileSize calls r) :
    calls.countP ReceiveCall.isRecv ≤ fileSize.toNat := by
  have hcounters := hr.counters
  have hcount := hr.iterations
  split_ifs at hcount with hphase
  · omega
  · have hinside := hr.inside hphase
    omega

/-- At its condition the loop ends with the announced part of the stream. -/
lemma ReceiveExact.file_eq (hr : ReceiveExact stream fileSize calls r) (hover : r.Over)
    (hleft : r.phase ≠ .left) :
    r.file = stream.take fileSize.toNat ∧ r.file.length = fileSize.toNat ∧
      r.stream = stream.drop fileSize.toNat := by
  obtain ⟨hphase, hzero⟩ := hover.resolve_left hleft
  have hfile := hr.written hleft
  rw [UploadReceive.pending, hphase, List.append_nil] at hfile
  have hlength : r.file.length = fileSize.toNat := by
    have hcounters := hr.counters
    rw [hzero] at hcounters
    rw [hr.total hleft, ← hcounters]
    exact (Nat.zero_add _).symm
  rw [← hr.stream, ← hfile, ← hlength, List.take_left, List.drop_left]
  exact ⟨rfl, rfl, rfl⟩

/-! ### The loop of the workers -/

/-- The state of the loop with one call for an iteration. -/
def UploadReceive.toLoop (r : UploadReceive) : ReceiveLoop where
  stream := r.pending ++ r.stream
  stored := r.file
  remaining := r.bytesRemaining.toNat
  total := r.totalReceived.toNat
  ended := r.phase = .left

/-- An iteration is over with its `write`, or with a `recv` that returns no bytes. -/
def UploadReceive.iteration (r : UploadReceive) : ReceiveCall → List ReceiveAction
  | .recv result  => if result.getD 0 = 0 then [.hangup true] else []
  | .write result => [.recv r.pending.length (result.getD 0)]

lemma ReceiveExact.iteration (hr : ReceiveExact stream fileSize calls r)
    (h : r.step c = some r') :
    run ReceiveLoop.step r.toLoop (r.iteration c) = some r'.toLoop := by
  cases UploadReceiveRule.of_step h with
  | recvEnd result hphase hpos hzero =>
    have hremaining : 0 < r.bytesRemaining.toNat := UInt64.lt_iff_toNat_lt.mp hpos
    simp [UploadReceive.iteration, UploadReceive.toLoop, UploadReceive.pending, ReceiveLoop.step,
      hzero, hphase, hremaining]
  | recv n hphase hpos hn hread hstream =>
    simp [UploadReceive.iteration, UploadReceive.toLoop, UploadReceive.pending, hphase, hn.ne']
  | writeFail chunk hphase =>
    have hchunk := hr.chunk chunk hphase
    have hpending := hr.pending
    rw [UploadReceive.pending, hphase] at hpending
    simp [UploadReceive.iteration, UploadReceive.toLoop, UploadReceive.pending, ReceiveLoop.step,
      hphase, hchunk, hchunk.ne, le_min_iff.mp hpending]
  | writeShort chunk written hphase hlt =>
    have hchunk := hr.chunk chunk hphase
    have hpending := hr.pending
    rw [UploadReceive.pending, hphase] at hpending
    simp [UploadReceive.iteration, UploadReceive.toLoop, UploadReceive.pending, ReceiveLoop.step,
      hphase, hchunk, hlt.le, hlt.ne, le_min_iff.mp hpending, List.take_append_of_le_length]
  | write chunk hphase =>
    obtain ⟨-, hremaining, htotal⟩ := hr.toNat_write hphase
    have hchunk := hr.chunk chunk hphase
    have hpending := hr.pending
    rw [UploadReceive.pending, hphase] at hpending
    simp [UploadReceive.iteration, UploadReceive.toLoop, UploadReceive.pending, ReceiveLoop.step,
      hphase, hchunk, le_min_iff.mp hpending, hremaining, htotal]

/-- The loop does what the loop of the workers does. -/
lemma run_toLoop (h : run UploadReceive.step (.init stream fileSize) calls = some r) :
    run ReceiveLoop.step (.init stream fileSize.toNat)
      (trace UploadReceive.step UploadReceive.iteration (.init stream fileSize) calls)
        = some r.toLoop := by
  refine run_simulation (I := fun r => ∃ calls, ReceiveExact stream fileSize calls r)
    UploadReceive.toLoop UploadReceive.iteration ?_ ?_ ⟨[], receiveExact_init⟩ h
  · rintro r c r' ⟨calls, hr⟩ h
    exact ⟨calls ++ [c], hr.step h⟩
  · rintro r c r' ⟨calls, hr⟩ h
    exact hr.iteration h

/-! ### Main result -/

/-- The receive loop keeps its counters, its file and its position in the stream in step, and
without an error it takes exactly the announced number of bytes. -/
theorem receive_loop_exact (h : run UploadReceive.step (.init stream fileSize) calls = some r) :
    r.bytesRemaining.toNat + r.totalReceived.toNat = fileSize.toNat ∧
      r.toRead ≤ r.bytesRemaining ∧
      (calls.countP ReceiveCall.isRecv ≤ fileSize.toNat ∧ (r.Over ↔ ∀ c, r.step c = none)) ∧
      (r.received ++ r.stream = stream ∧ r.file <+: r.received ∧
        r.file.length ≤ fileSize.toNat) ∧
      (r.Over → r.phase ≠ .left → r.file = stream.take fileSize.toNat ∧
        r.file.length = fileSize.toNat ∧ r.stream = stream.drop fileSize.toNat) := by
  have hr := ReceiveExact.of_run h
  refine ⟨hr.counters, ?_, ⟨hr.iterations_le, r.over_iff⟩, ⟨hr.stream, hr.file, ?_⟩, hr.file_eq⟩
  · rw [UInt64.le_iff_toNat_le, r.toNat_toRead]
    exact Nat.min_le_right _ _
  · exact hr.file.length_le.trans hr.size

/-- Three of four bytes, received in two pieces. -/
theorem receive_loop_exact_three :
    ∃ r, run UploadReceive.step (.init [1, 2, 3, 4] 3)
        [.recv (some 2), .write (some 2), .recv (some 1), .write (some 1)] = some r ∧
      r.phase ≠ .left ∧ r.file = [1, 2, 3] ∧ r.stream = [4] := by
  refine ⟨⟨[4], [1, 2, 3], [1, 2, 3], 0, 3, .receiving⟩, rfl, by decide, ?_⟩
  have hrun : run UploadReceive.step (.init [1, 2, 3, 4] 3)
      [.recv (some 2), .write (some 2), .recv (some 1), .write (some 1)]
      = some ⟨[4], [1, 2, 3], [1, 2, 3], 0, 3, .receiving⟩ := rfl
  obtain ⟨hfile, -, hstream⟩ := (receive_loop_exact hrun).2.2.2.2 (.inr ⟨rfl, rfl⟩) (by decide)
  exact ⟨hfile, hstream⟩

end UploadReceive

end Pcd
