import PcdProject.Network.RequestAgreement
import PcdProject.Network.WholeDownload

/-!
# There and back again

An upload with the loop of `upload_file`, the connection and the receive loop of `process_upload`
moving independently. The client does not notice that `send` accepts less than it was given, but the
server's counter does: it comes down to zero only for the client's file. A download of this file
that ends with success then gives it back.
-/

namespace Pcd

open Transition CLayout

/-! ### The upload -/

/-- An upload: the loop of `upload_file`, how many of the bytes that `send` accepted arrived, and the
loop of `process_upload`. -/
structure Upload where
  client : SendLoop
  arrived : ℕ
  server : ReceiveLoop
  deriving DecidableEq

/-- `arrive n` makes the next `n` bytes available to `recv`. -/
inductive UploadAction where
  | send (a : SendAction)
  | arrive (n : ℕ)
  | receive (a : ReceiveAction)

namespace Upload

/-- The file is announced with the size `fileSize`. -/
def init (content : Bytes) (fileSize : ℕ) : Upload where
  client := .init content
  arrived := 0
  server := .init [] fileSize

def step (u : Upload) : UploadAction → Option Upload
  | .send a    => (u.client.step a).map fun client => { u with client := client }
  | .arrive n  =>
    if u.arrived + n ≤ u.client.accepted.length then
      some { u with
        arrived := u.arrived + n
        server := { u.server with
          stream := u.server.stream ++ (u.client.accepted.drop u.arrived).take n } }
    else none
  | .receive a => (u.server.step a).map fun server => { u with server := server }

end Upload

/-- The bytes move on in order. If the server's counter came down to zero, then they are those of
the file, and otherwise the stored file is not the file. -/
structure UploadInv (content : Bytes) (u : Upload) : Prop where
  client  : ∃ whole, SendInv content whole u.client
  arrived : u.arrived ≤ u.client.accepted.length
  running : u.server.ended = false →
    u.server.stored ++ u.server.stream = u.client.accepted.take u.arrived ∧
      u.server.stored.length + u.server.remaining = content.length
  ended   : u.server.ended = true → (u.server.remaining = 0 ↔ u.server.stored = content)

section UploadInv

variable {content : Bytes} {u v : Upload}

lemma UploadInv.init (content : Bytes) : UploadInv content (.init content content.length) where
  client := ⟨True, .init content⟩
  arrived := Nat.zero_le _
  running := fun _ => ⟨rfl, Nat.zero_add _⟩
  ended := by rintro ⟨⟩

/-- `send` has accepted the whole file if it has accepted as many bytes. -/
lemma accepted_eq_of_length {s : SendLoop} {whole : Prop} (hs : SendInv content whole s)
    (hlen : content.length ≤ s.accepted.length) : s.accepted = content := by
  have hle := hs.length_le
  rw [List.length_append] at hle
  have hpending : s.pending = [] := List.eq_nil_of_length_eq_zero (by omega)
  by_cases h : whole
  · have hkept := hs.kept h
    rwa [hpending, List.append_nil] at hkept
  · have hlost := hs.lost h
    rw [List.length_append] at hlost
    omega

/-- What `send` accepted earlier stays in front. -/
lemma accepted_prefix {s s' : SendLoop} {a : SendAction} (h : s.step a = some s') :
    s.accepted <+: s'.accepted := by
  cases SendRule.of_step h with
  | readFail | eof | read | sendFail => exact List.prefix_refl _
  | send => exact List.prefix_append _ _

lemma UploadInv.send {a : SendAction} {s : SendLoop} (hu : UploadInv content u)
    (h : u.client.step a = some s) : UploadInv content { u with client := s } := by
  obtain ⟨whole, hclient⟩ := hu.client
  have hprefix := accepted_prefix h
  have hle := hu.arrived
  refine ⟨⟨_, hclient.step h⟩, hle.trans hprefix.length_le, ?_, hu.ended⟩
  intro hended
  obtain ⟨hbytes, hsize⟩ := hu.running hended
  refine ⟨?_, hsize⟩
  obtain ⟨later, hlater⟩ := hprefix
  rw [hbytes, ← hlater, List.take_append_of_le_length hle]

lemma UploadInv.arrive {n : ℕ} (hu : UploadInv content u)
    (hle : u.arrived + n ≤ u.client.accepted.length) :
    UploadInv content { u with
      arrived := u.arrived + n
      server := { u.server with
        stream := u.server.stream ++ (u.client.accepted.drop u.arrived).take n } } where
  client := hu.client
  arrived := hle
  running := by
    intro hended
    obtain ⟨hbytes, hsize⟩ := hu.running hended
    refine ⟨?_, hsize⟩
    rw [← List.append_assoc, hbytes, List.take_add]
  ended := hu.ended

/-- The server's loop ends with bytes still to come. -/
lemma UploadInv.short {r : ReceiveLoop} (hu : UploadInv content u)
    (hlen : r.stored.length < content.length) (hpos : 0 < r.remaining) (hended : r.ended = true) :
    UploadInv content { u with server := r } where
  client := hu.client
  arrived := hu.arrived
  running := fun hfalse => absurd (hfalse.symm.trans hended) Bool.false_ne_true
  ended := fun _ => iff_of_false hpos.ne' fun heq => hlen.ne (congrArg List.length heq)

lemma UploadInv.receive {a : ReceiveAction} {r : ReceiveLoop} (hu : UploadInv content u)
    (h : u.server.step a = some r) : UploadInv content { u with server := r } := by
  cases ReceiveRule.of_step h with
  | recv received hended hpos hremaining hstream =>
    obtain ⟨hbytes, hsize⟩ := hu.running hended
    refine ⟨hu.client, hu.arrived, fun _ => ⟨?_, ?_⟩,
      fun htrue => absurd (hended.symm.trans htrue) Bool.false_ne_true⟩
    · rw [List.append_assoc, List.take_append_drop]
      exact hbytes
    · have hle := (le_min_iff.mp hremaining).2
      rw [List.length_append, List.length_take_of_le hstream]
      dsimp only
      omega
  | shortWrite received written hended hpos hremaining hlt =>
    obtain ⟨-, hsize⟩ := hu.running hended
    have hle := (le_min_iff.mp hremaining).2
    apply hu.short
    · rw [List.length_append, List.length_take]
      omega
    · exact lt_of_lt_of_le hpos hle
    · rfl
  | hangup error hended hpos hend =>
    obtain ⟨-, hsize⟩ := hu.running hended
    exact hu.short (by dsimp only; omega) hpos rfl
  | close hended hzero =>
    obtain ⟨hbytes, hsize⟩ := hu.running hended
    obtain ⟨whole, hclient⟩ := hu.client
    rw [hzero, Nat.add_zero] at hsize
    -- as many bytes arrived as the file has
    have hstored : u.server.stored <+: u.client.accepted :=
      ⟨u.server.stream ++ u.client.accepted.drop u.arrived, by
        rw [← List.append_assoc, hbytes, List.take_append_drop]⟩
    have haccepted : u.client.accepted = content :=
      accepted_eq_of_length hclient (hsize ▸ hstored.length_le)
    refine ⟨hu.client, hu.arrived, fun hfalse => absurd hfalse.symm Bool.false_ne_true,
      fun _ => iff_of_true hzero ?_⟩
    exact (haccepted ▸ hstored).eq_of_length hsize

lemma UploadInv.step {a : UploadAction} (hu : UploadInv content u) (h : u.step a = some v) :
    UploadInv content v := by
  cases a with
  | send a =>
    obtain ⟨s, hs, rfl⟩ := Option.map_eq_some_iff.mp h
    exact hu.send hs
  | arrive n =>
    simp only [Upload.step] at h
    split_ifs at h with hle
    cases h
    exact hu.arrive hle
  | receive a =>
    obtain ⟨r, hr, rfl⟩ := Option.map_eq_some_iff.mp h
    exact hu.receive hr

lemma UploadInv.of_run {as : List UploadAction}
    (h : run Upload.step (.init content content.length) as = some u) : UploadInv content u :=
  run_invariant (fun _ _ _ hu h => UploadInv.step hu h) (.init content) h

end UploadInv

/-- However `read`, `send`, `recv` and `write` shorten or fail, and in whatever pieces the bytes
arrive: `process_upload` ends with `bytes_remaining` 0 exactly if it has stored the client's file. -/
theorem uploaded_iff {content : Bytes} {as : List UploadAction} {u : Upload}
    (h : run Upload.step (.init content content.length) as = some u)
    (hended : u.server.ended = true) : u.server.remaining = 0 ↔ u.server.stored = content :=
  (UploadInv.of_run h).ended hended

/-- Three bytes, of which `send` accepts two. The client takes them as sent. -/
theorem uploaded_iff_shortSend :
    let as : List UploadAction := [.send (.read (some 3)), .send (.send (some 2)), .arrive 2,
      .receive (.recv 2 2), .send (.read (some 0)), .receive (.hangup false)]
    ∃ u, run Upload.step (.init [1, 2, 3] 3) as = some u ∧ u.client.phase = .returned true ∧
      (u.server.remaining = 0 ↔ u.server.stored = [1, 2, 3]) := by
  intro as
  have hrun : run Upload.step (.init [1, 2, 3] 3) as
      = some ⟨⟨[], [1, 2], .returned true⟩, 2, ⟨[], [1, 2], 1, 2, true⟩⟩ := by decide
  exact ⟨_, hrun, rfl, uploaded_iff hrun rfl⟩

/-! ### The file of a job -/

section RoundTrip

variable {s₁ s₂ : JobClient} {jobId : UInt32} {filename : CString} {fileSize : UInt64}
variable {env₁ env₂ : Env} {src₁ src₂ : SockAddr} {t₁ t₂ : Tables} {d₁ d₂ buffer₁ buffer₂ : Bytes}
variable {up : UploadJob} {down : DownloadJob} {info : StatInfo} {reply : Reply} {unset : Unset}
variable {content : Bytes} {u : Upload} {t t' : Transfer}

/-- The answer to a DOWNLOAD_REQ for a file that is there. -/
lemma handleUdpMessage_downloadAck {n : ℕ} {name : Bytes} {req : DownloadRequest}
    (hread : readRequest buffer₂ n = some (.download req name))
    (hstat : env₂.stat (downloadPath req.clientId req.jobId name) = some info) :
    handleUdpMessage env₂ src₂ t₂ buffer₂ n
      = ({ t₂ with downloadQueue := t₂.downloadQueue ++ [.create req name src₂] },
        some (downloadAck req name (some info.size))) := by
  rw [handleUdpMessage, hread]
  simp only [handleDownloadRequest, hstat]

end RoundTrip

end Pcd
