import PcdProject.Core.Transition
import PcdProject.Protocol.Messages

/-!
# The transfer of `upload_file`

The loop that reads a file and sends it on the TCP connection. It does not look at how much of a
chunk `send` accepted, and it leaves the loop after a failed `send` in the same way as at the end of
the file.
-/

namespace Pcd

open Transition

/-- `sizeof(file_buffer)` -/
def FILE_BUFFER_SIZE : ℕ := 4096

inductive SendPhase where
  | reading
  | sending (chunk : Bytes)
  | returned (success : Bool)
  deriving DecidableEq

/-- The transfer of a file: what `read` has not returned yet, and what `send` accepted. -/
structure SendLoop where
  unread : Bytes
  accepted : Bytes
  phase : SendPhase
  deriving DecidableEq

/-- A call of the loop with its result, `none` for -1. -/
inductive SendAction where
  | read (result : Option ℕ)
  | send (result : Option ℕ)

namespace SendLoop

def init (content : Bytes) : SendLoop where
  unread := content
  accepted := []
  phase := .reading

/-- A step of the loop; `none` if it is not at this call or the call does not return this. -/
def step (s : SendLoop) (a : SendAction) : Option SendLoop :=
  match s.phase, a with
  | .reading, .read none          => some { s with phase := .returned false }
  | .reading, .read (some 0)      =>
    if s.unread = [] then some { s with phase := .returned true } else none
  | .reading, .read (some n)      =>
    if n ≤ min FILE_BUFFER_SIZE s.unread.length then
      some { s with unread := s.unread.drop n, phase := .sending (s.unread.take n) }
    else none
  | .sending _, .send none        => some { s with phase := .returned true }
  | .sending _, .send (some 0)    => some { s with phase := .returned true }
  | .sending chunk, .send (some n) =>
    if n ≤ chunk.length then
      some { s with accepted := s.accepted ++ chunk.take n, phase := .reading }
    else none
  | _, _ => none

end SendLoop

/-! ### What a step changes -/

inductive SendRule (s : SendLoop) : SendAction → SendLoop → Prop where
  | readFail (hphase : s.phase = .reading) :
      SendRule s (.read none) { s with phase := .returned false }
  | eof (hphase : s.phase = .reading) (hend : s.unread = []) :
      SendRule s (.read (some 0)) { s with phase := .returned true }
  | read (n : ℕ) (hphase : s.phase = .reading) (hpos : 0 < n) (hle : n ≤ s.unread.length) :
      SendRule s (.read (some n))
        { s with unread := s.unread.drop n, phase := .sending (s.unread.take n) }
  | sendFail (chunk : Bytes) (result : Option ℕ) (hphase : s.phase = .sending chunk)
      (hzero : result.getD 0 = 0) :
      SendRule s (.send result) { s with phase := .returned true }
  | send (chunk : Bytes) (n : ℕ) (hphase : s.phase = .sending chunk) (hpos : 0 < n)
      (hle : n ≤ chunk.length) :
      SendRule s (.send (some n))
        { s with accepted := s.accepted ++ chunk.take n, phase := .reading }

lemma SendRule.of_step {s t : SendLoop} {a : SendAction} (h : s.step a = some t) :
    SendRule s a t := by
  unfold SendLoop.step at h
  split at h
  · rename_i hphase
    cases h
    exact .readFail hphase
  · rename_i hphase
    split_ifs at h with hend
    cases h
    exact .eof hphase hend
  · rename_i n hzero hphase
    split_ifs at h with hle
    cases h
    exact .read n hphase (Nat.pos_of_ne_zero hzero) (hle.trans (min_le_right _ _))
  · rename_i chunk hphase
    cases h
    exact .sendFail chunk none hphase rfl
  · rename_i chunk hphase
    cases h
    exact .sendFail chunk (some 0) hphase rfl
  · rename_i chunk n hzero hphase
    split_ifs at h with hle
    cases h
    exact .send chunk n hphase (Nat.pos_of_ne_zero hzero) hle
  · cases h

/-! ### Bytes that get lost -/

namespace SendLoop

/-- The chunk of a `send` and the result of it. -/
def sendResult (s : SendLoop) (a : SendAction) : Option (Bytes × Option ℕ) :=
  match s.phase, a with
  | .sending chunk, .send result => some (chunk, result)
  | _, _ => none

/-- If the step is a `send`, it accepts its whole chunk. -/
def SendsWhole (s : SendLoop) (a : SendAction) : Prop :=
  ∀ p ∈ s.sendResult a, p.2 = some p.1.length

instance (s : SendLoop) (a : SendAction) : Decidable (s.SendsWhole a) :=
  inferInstanceAs (Decidable (∀ p ∈ s.sendResult a, _))

/-- What is still to be sent. -/
def pending (s : SendLoop) : Bytes :=
  match s.phase with
  | .sending chunk => chunk ++ s.unread
  | _              => s.unread

end SendLoop

/-- Either nothing was lost (`whole`), and what was accepted and what is pending make up the file,
or they are shorter than the file. -/
structure SendInv (content : Bytes) (whole : Prop) (s : SendLoop) : Prop where
  kept  : whole → s.accepted ++ s.pending = content
  lost  : ¬ whole → (s.accepted ++ s.pending).length < content.length
  chunk : ∀ chunk, s.phase = .sending chunk → chunk ≠ []
  ended : whole → s.phase = .returned true → s.unread = []

namespace SendInv

variable {content : Bytes} {whole : Prop} {s t : SendLoop} {a : SendAction} {as : List SendAction}

lemma init (content : Bytes) : SendInv content True (SendLoop.init content) where
  kept := fun _ => rfl
  lost := fun h => absurd trivial h
  chunk := by
    rintro chunk ⟨⟩
  ended := by
    rintro - ⟨⟩

lemma length_le (hs : SendInv content whole s) :
    (s.accepted ++ s.pending).length ≤ content.length := by
  by_cases h : whole
  · rw [hs.kept h]
  · exact (hs.lost h).le

/-- A step without `send` only moves bytes within what is pending. -/
lemma quiet (hs : SendInv content whole s) (hquiet : s.sendResult a = none)
    (haccepted : t.accepted = s.accepted) (hpending : t.pending = s.pending)
    (hchunk : ∀ chunk, t.phase = .sending chunk → chunk ≠ [])
    (hended : t.phase = .returned true → t.unread = []) :
    SendInv content (whole ∧ s.SendsWhole a) t := by
  have hwhole : s.SendsWhole a := by simp [SendLoop.SendsWhole, hquiet]
  rw [and_iff_left hwhole]
  refine ⟨?_, ?_, hchunk, fun _ => hended⟩
  · rw [haccepted, hpending]
    exact hs.kept
  · rw [haccepted, hpending]
    exact hs.lost

lemma send_step {chunk : Bytes} {n : ℕ} (hs : SendInv content whole s)
    (hphase : s.phase = .sending chunk) (hle : n ≤ chunk.length) :
    SendInv content (whole ∧ s.SendsWhole (.send (some n)))
      { s with accepted := s.accepted ++ chunk.take n, phase := .reading } := by
  have hwhole : s.SendsWhole (.send (some n)) ↔ n = chunk.length := by
    simp [SendLoop.SendsWhole, SendLoop.sendResult, hphase]
  have hpending : s.pending = chunk ++ s.unread := by rw [SendLoop.pending, hphase]
  rw [hwhole]
  refine ⟨?_, ?_, by rintro _ ⟨⟩, by rintro _ ⟨⟩⟩
  · rintro ⟨h, rfl⟩
    rw [← hs.kept h, hpending, List.take_length, List.append_assoc]
    rfl
  · intro hcut
    have htotal := hs.length_le
    rw [hpending] at htotal
    simp only [SendLoop.pending, List.length_append, List.length_take] at htotal ⊢
    by_cases hn : n = chunk.length
    · have hlost := hs.lost fun h => hcut ⟨h, hn⟩
      rw [hpending] at hlost
      simp only [List.length_append] at hlost
      omega
    · omega

/-- The loop is left without what is left of its chunk. -/
lemma sendFail_step {chunk : Bytes} {result : Option ℕ} (hs : SendInv content whole s)
    (hphase : s.phase = .sending chunk) (hzero : result.getD 0 = 0) :
    SendInv content (whole ∧ s.SendsWhole (.send result)) { s with phase := .returned true } := by
  have hpos : 0 < chunk.length := List.length_pos_of_ne_nil (hs.chunk chunk hphase)
  have hcut : ¬ s.SendsWhole (.send result) := by
    intro h
    have hresult : result = some chunk.length :=
      h (chunk, result) (by simp [SendLoop.sendResult, hphase])
    rw [hresult] at hzero
    exact hpos.ne' hzero
  refine ⟨fun h => absurd h.2 hcut, ?_, by rintro _ ⟨⟩, fun h => absurd h.2 hcut⟩
  intro _
  have htotal := hs.length_le
  simp only [SendLoop.pending, hphase, List.length_append] at htotal ⊢
  omega

lemma step (hs : SendInv content whole s) (h : s.step a = some t) :
    SendInv content (whole ∧ s.SendsWhole a) t := by
  cases SendRule.of_step h with
  | readFail hphase =>
    apply hs.quiet
    · simp [SendLoop.sendResult, hphase]
    · rfl
    · simp [SendLoop.pending, hphase]
    · rintro chunk ⟨⟩
    · rintro ⟨⟩
  | eof hphase hend =>
    apply hs.quiet
    · simp [SendLoop.sendResult, hphase]
    · rfl
    · simp [SendLoop.pending, hphase]
    · rintro chunk ⟨⟩
    · exact fun _ => hend
  | read n hphase hpos hle =>
    apply hs.quiet
    · simp [SendLoop.sendResult, hphase]
    · rfl
    · simp [SendLoop.pending, hphase]
    · rintro chunk ⟨⟩ hnil
      have hlen := congrArg List.length hnil
      rw [List.length_take, List.length_nil] at hlen
      omega
    · rintro ⟨⟩
  | sendFail chunk result hphase hzero => exact hs.sendFail_step hphase hzero
  | send chunk n hphase hpos hle => exact hs.send_step hphase hle

lemma of_run (h : run SendLoop.step (SendLoop.init content) as = some s) :
    SendInv content (Along SendLoop.step SendLoop.SendsWhole (SendLoop.init content) as) s := by
  refine run_induction (P := fun as s => SendInv content
    (Along SendLoop.step SendLoop.SendsWhole (SendLoop.init content) as) s) ?_ ?_ h
  · have hnil : Along SendLoop.step SendLoop.SendsWhole (SendLoop.init content) [] := along_nil
    rw [eq_true hnil]
    exact init content
  · intro as a s t hrun ha ih
    rw [along_concat_of_run hrun]
    exact ih.step ha

/-- A call that returns 1 has sent the whole file exactly if no `send` accepted less than its
chunk. -/
lemma accepted_eq_iff (hs : SendInv content whole s) (hreturn : s.phase = .returned true) :
    s.accepted = content ↔ whole := by
  have hpending : s.pending = s.unread := by rw [SendLoop.pending, hreturn]
  constructor
  · intro heq
    by_contra hcut
    have hlost := hs.lost hcut
    rw [heq, List.length_append] at hlost
    omega
  · intro h
    have hkept := hs.kept h
    rwa [hpending, hs.ended h hreturn, List.append_nil] at hkept

end SendInv

end Pcd
