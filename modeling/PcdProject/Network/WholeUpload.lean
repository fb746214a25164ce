import PcdProject.Client.SendLoop
import PcdProject.Server.UploadThread

/-!
# Uploads from file to file

The bytes of an upload: the receive loop of `process_upload` on the stream that the loop of
`upload_file` leaves on the connection. On the server nothing is lost without an error; on the
client the bytes that `send` does not accept are.
-/

namespace Pcd

open Transition

/-! ### The receive loop -/

/-- The receive loop of `process_upload`: what is still to come on the connection, what is written,
`bytes_remaining` and `total_received`. -/
structure ReceiveLoop where
  stream : Bytes
  stored : Bytes
  remaining : ℕ
  total : ℕ
  ended : Bool
  deriving DecidableEq

/-- `hangup` is a `recv` that returns 0 at the end of the stream, or -1. -/
inductive ReceiveAction where
  | recv (received written : ℕ)
  | hangup (error : Bool)
  | close

namespace ReceiveLoop

def init (stream : Bytes) (fileSize : ℕ) : ReceiveLoop where
  stream := stream
  stored := []
  remaining := fileSize
  total := 0
  ended := false

def step (r : ReceiveLoop) (a : ReceiveAction) : Option ReceiveLoop :=
  match r.ended, a with
  | false, .recv received written =>
    if 0 < received ∧ received ≤ min CHUNK_SIZE r.remaining ∧ received ≤ r.stream.length ∧
        written ≤ received then
      let r' := { r with
        stream := r.stream.drop received
        stored := r.stored ++ r.stream.take written }
      if written = received then
        some { r' with remaining := r.remaining - received, total := r.total + received }
      else some { r' with ended := true }
    else none
  | false, .hangup error =>
    if 0 < r.remaining ∧ (error ∨ r.stream = []) then some { r with ended := true } else none
  | false, .close => if r.remaining = 0 then some { r with ended := true } else none
  | true, _ => none

/-- The location of the worker. -/
def worker (r : ReceiveLoop) (job : UploadJob) (conn : Connection) : Worker :=
  if r.ended then .transferred job r.remaining r.total
  else .receiving job conn r.remaining r.total

end ReceiveLoop

def ReceiveAction.workerAction : ReceiveAction → WorkerAction
  | .recv received written => .recv received written
  | .hangup _              => .hangup
  | .close                 => .close

/-- Neither `recv` nor `write` fails. -/
def ReceiveAction.Succeeds : ReceiveAction → Prop
  | .recv received written => written = received
  | .hangup error          => error = false
  | .close                 => True

/-! ### What a step changes -/

inductive ReceiveRule (r : ReceiveLoop) : ReceiveAction → ReceiveLoop → Prop where
  | recv (received : ℕ) (hended : r.ended = false) (hpos : 0 < received)
      (hremaining : received ≤ min CHUNK_SIZE r.remaining) (hstream : received ≤ r.stream.length) :
      ReceiveRule r (.recv received received)
        { r with
          stream := r.stream.drop received
          stored := r.stored ++ r.stream.take received
          remaining := r.remaining - received
          total := r.total + received }
  | shortWrite (received written : ℕ) (hended : r.ended = false) (hpos : 0 < received)
      (hremaining : received ≤ min CHUNK_SIZE r.remaining) (hlt : written < received) :
      ReceiveRule r (.recv received written)
        { r with
          stream := r.stream.drop received
          stored := r.stored ++ r.stream.take written
          ended := true }
  | hangup (error : Bool) (hended : r.ended = false) (hpos : 0 < r.remaining)
      (hend : error = false → r.stream = []) :
      ReceiveRule r (.hangup error) { r with ended := true }
  | close (hended : r.ended = false) (hzero : r.remaining = 0) :
      ReceiveRule r .close { r with ended := true }

lemma ReceiveRule.of_step {r r' : ReceiveLoop} {a : ReceiveAction} (h : r.step a = some r') :
    ReceiveRule r a r' := by
  unfold ReceiveLoop.step at h
  split at h
  · rename_i received written hended
    split_ifs at h with hguard hall
    · obtain ⟨hpos, hremaining, hstream, -⟩ := hguard
      cases h
      subst hall
      exact .recv written hended hpos hremaining hstream
    · obtain ⟨hpos, hremaining, hstream, hwritten⟩ := hguard
      cases h
      exact .shortWrite received written hended hpos hremaining (lt_of_le_of_ne hwritten hall)
  · rename_i error hended
    split_ifs at h with hguard
    obtain ⟨hpos, hend⟩ := hguard
    cases h
    refine .hangup error hended hpos fun hok => hend.resolve_left ?_
    rw [hok]
    exact Bool.false_ne_true
  · rename_i hended
    split_ifs at h with hzero
    cases h
    exact .close hended hzero
  · cases h

section ReceiveLoop

variable {r r' : ReceiveLoop} {a : ReceiveAction} {stream content : Bytes} {fileSize : ℕ}

/-- The loop is the one of the workers, with the bytes that these leave out. -/
lemma workerStep_of_step {s : Server} {w : ℕ} {job : UploadJob} {conn : Connection}
    (hpc : s.workers[w]? = some (r.worker job conn)) (h : r.step a = some r') :
    s.workerStep w a.workerAction = some (s.setWorker w (r'.worker job conn)) := by
  have hreceiving : r.ended = false →
      s.workers[w]? = some (.receiving job conn r.remaining r.total) := by
    intro hended
    rw [hpc, ReceiveLoop.worker, hended]
    rfl
  cases ReceiveRule.of_step h with
  | recv received hended hpos hremaining hstream =>
    simp [Server.workerStep, ReceiveAction.workerAction, hreceiving hended, hpos,
      le_min_iff.mp hremaining, ReceiveLoop.worker, hended]
  | shortWrite received written hended hpos hremaining hlt =>
    simp [Server.workerStep, ReceiveAction.workerAction, hreceiving hended, hpos,
      le_min_iff.mp hremaining, ReceiveLoop.worker, hlt.le, hlt.ne]
  | hangup error hended hpos hend =>
    simp [Server.workerStep, ReceiveAction.workerAction, hreceiving hended, hpos,
      ReceiveLoop.worker]
  | close hended hzero =>
    simp [Server.workerStep, ReceiveAction.workerAction, hreceiving hended, hzero,
      ReceiveLoop.worker]

/-- Without errors, what is written and what is to come make up the stream, and the loop ends with
the announced size or with the stream. -/
structure ReceiveInv (stream : Bytes) (fileSize : ℕ) (r : ReceiveLoop) : Prop where
  bytes : r.stored ++ r.stream = stream
  size  : r.stored.length + r.remaining = fileSize
  ended : r.ended = true → r.remaining = 0 ∨ r.stream = []

lemma ReceiveInv.step (hr : ReceiveInv stream fileSize r) (ha : a.Succeeds)
    (h : r.step a = some r') : ReceiveInv stream fileSize r' := by
  obtain ⟨hbytes, hsize, hended⟩ := hr
  cases ReceiveRule.of_step h with
  | recv received hfalse hpos hremaining hstream =>
    refine ⟨?_, ?_, ?_⟩
    · rw [List.append_assoc, List.take_append_drop]
      exact hbytes
    · have hle := (le_min_iff.mp hremaining).2
      rw [List.length_append, List.length_take_of_le hstream]
      change _ + (r.remaining - received) = _
      omega
    · intro htrue
      exact absurd (hfalse.symm.trans htrue) Bool.false_ne_true
  | shortWrite received written _ _ _ hlt => exact absurd ha hlt.ne
  | hangup error _ _ hend => exact ⟨hbytes, hsize, fun _ => .inr (hend ha)⟩
  | close _ hzero => exact ⟨hbytes, hsize, fun _ => .inl hzero⟩

/-- The server stores the file when the stream is the file. -/
lemma stored_eq_of_run {as : List ReceiveAction}
    (h : run ReceiveLoop.step (.init content content.length) as = some r)
    (has : ∀ a ∈ as, a.Succeeds) (hended : r.ended = true) : r.stored = content := by
  have hinv : ReceiveInv content content.length r := by
    have hC : Along ReceiveLoop.step (fun _ a => a.Succeeds)
        (.init content content.length) as := by
      intro pre a t hpre _
      exact has a (hpre.subset (List.mem_append_right _ (List.mem_singleton_self a)))
    refine along_invariant (fun _ _ _ hr ha h => hr.step ha h) ?_ hC h
    exact ⟨rfl, Nat.zero_add _, by rintro ⟨⟩⟩
  have hlen := congrArg List.length hinv.bytes
  have hsize := hinv.size
  rw [List.length_append] at hlen
  have hrest : r.stream = [] := by
    rcases hinv.ended hended with hzero | hnil
    · exact List.eq_nil_of_length_eq_zero (by omega)
    · exact hnil
  have hbytes := hinv.bytes
  rwa [hrest, List.append_nil] at hbytes

end ReceiveLoop

/-! ### Main result -/

/-- A call of `upload_file` that returns 1 has delivered its file, to the connection and to the
server, exactly if each `send` accepted its whole chunk. -/
theorem delivered_iff {content : Bytes} {as : List SendAction} {s : SendLoop}
    (h : run SendLoop.step (.init content) as = some s) (hreturn : s.phase = .returned true) :
    (s.accepted = content ∧
      ∀ rs r, run ReceiveLoop.step (.init s.accepted content.length) rs = some r →
        (∀ a ∈ rs, a.Succeeds) → r.ended = true → r.stored = content) ↔
      Along SendLoop.step SendLoop.SendsWhole (.init content) as := by
  have haccepted := (SendInv.of_run h).accepted_eq_iff hreturn
  constructor
  · rintro ⟨heq, -⟩
    exact haccepted.mp heq
  · intro hwhole
    have heq := haccepted.mpr hwhole
    refine ⟨heq, ?_⟩
    rw [heq]
    intro rs r hrun hok hended
    exact stored_eq_of_run hrun hok hended

/-- A file of three bytes, sent at once. -/
theorem delivered_iff_whole :
    ∃ s, run SendLoop.step (.init [1, 2, 3])
        [.read (some 3), .send (some 3), .read (some 0)] = some s ∧
      ((s.accepted = [1, 2, 3] ∧
        ∀ rs r, run ReceiveLoop.step (.init s.accepted 3) rs = some r →
          (∀ a ∈ rs, a.Succeeds) → r.ended = true → r.stored = [1, 2, 3]) ↔
        Along SendLoop.step SendLoop.SendsWhole (.init [1, 2, 3])
          [.read (some 3), .send (some 3), .read (some 0)]) :=
  ⟨⟨[], [1, 2, 3], .returned true⟩, rfl, delivered_iff rfl rfl⟩

/-- `send` accepts two of the three bytes. -/
theorem not_delivered_shortSend :
    ¬ ∀ content as s, run SendLoop.step (.init content) as = some s →
      s.phase = .returned true → s.accepted = content := by
  intro h
  have heq := h [1, 2, 3] [.read (some 3), .send (some 2), .read (some 0)]
    ⟨[], [1, 2], .returned true⟩ rfl rfl
  revert heq
  decide

end Pcd
