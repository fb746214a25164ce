import PcdProject.Client.PyClient
import PcdProject.Network.UploadReceive

/-!
# Uploads of the Python client

`send_file_tcp` puts a header in front of the file. The server does not expect one: it stores as
many bytes as the file has, from the beginning of the stream.
-/

namespace Pcd

open Transition

/-! ### A stream that is long enough -/

/-- `recv` returns all that it was asked for. -/
lemma UploadReceive.step_recv {r : UploadReceive} (hphase : r.phase = .receiving)
    (hpos : 0 < r.bytesRemaining) (hstream : r.toRead.toNat ≤ r.stream.length) :
    r.step (.recv (some r.toRead.toNat)) = some { r with
      stream := r.stream.drop r.toRead.toNat
      received := r.received ++ r.stream.take r.toRead.toNat
      phase := .writing (r.stream.take r.toRead.toNat) } := by
  have hsome : (r.step (.recv (some r.toRead.toNat))).isSome :=
    UploadReceive.isSome_recv hphase hpos (Nat.le_refl _) hstream
  obtain ⟨r', hr'⟩ := Option.isSome_iff_exists.mp hsome
  have hread : r.toRead.toNat ≠ 0 := by
    have hpos' : 0 < r.bytesRemaining.toNat := UInt64.lt_iff_toNat_lt.mp hpos
    have hchunk : 0 < CHUNK_SIZE := by decide
    rw [r.toNat_toRead]
    omega
  rw [hr']
  cases UploadReceiveRule.of_step hr' with
  | recvEnd result _ _ hzero => exact absurd hzero hread
  | recv => rfl

/-- Without errors the receive loop comes to its condition. -/
lemma exists_run_to_end {stream : Bytes} {fileSize : UInt64} {calls : List ReceiveCall}
    {r : UploadReceive} (h : run UploadReceive.step (.init stream fileSize) calls = some r)
    (hphase : r.phase = .receiving) (hlen : r.bytesRemaining.toNat ≤ r.stream.length) :
    ∃ calls r, run UploadReceive.step (.init stream fileSize) calls = some r ∧ r.Over ∧
      r.phase ≠ .left := by
  induction hn : r.bytesRemaining.toNat using Nat.strong_induction_on generalizing calls r with
  | _ n ih =>
    by_cases hzero : r.bytesRemaining = 0
    · exact ⟨calls, r, h, .inr ⟨hphase, hzero⟩, by simp [hphase]⟩
    · -- one iteration: all bytes that `recv` is asked for come and are written
      have hpos : 0 < r.bytesRemaining := UInt64.pos_iff_ne_zero.mpr hzero
      have hpos' : 0 < r.bytesRemaining.toNat := UInt64.lt_iff_toNat_lt.mp hpos
      have hchunk : 0 < CHUNK_SIZE := by decide
      have hread := r.toNat_toRead
      have hstream : r.toRead.toNat ≤ r.stream.length := by omega
      have hrecv := run_concat_eq_some.mpr ⟨r, h, r.step_recv hphase hpos hstream⟩
      have htake : (r.stream.take r.toRead.toNat).length = r.toRead.toNat :=
        List.length_take_of_le hstream
      have hremaining : (r.bytesRemaining - UInt64.ofNat (r.stream.take r.toRead.toNat).length).toNat
          = r.bytesRemaining.toNat - (r.stream.take r.toRead.toNat).length :=
        ((ReceiveExact.of_run hrecv).toNat_write rfl).2.1
      rw [htake] at hremaining
      have hwrite := run_concat_eq_some.mpr ⟨_, hrecv, UploadReceive.step_write rfl⟩
      refine ih _ ?_ hwrite rfl ?_ rfl
      · rw [htake, hremaining]
        omega
      · change _ ≤ (r.stream.drop r.toRead.toNat).length
        rw [htake, hremaining, List.length_drop]
        omega

/-! ### Prefixes of a list behind a header -/

/-- A list is its own prefix behind a header exactly if it repeats the header. -/
lemma prefix_append_self_iff {header content : Bytes} (hheader : header ≠ []) :
    content <+: header ++ content ↔
      ∀ i < content.length, content[i]? = header[i % header.length]? := by
  have hpos : 0 < header.length := List.length_pos_iff.mpr hheader
  have hbehind : ∀ i, header.length ≤ i →
      (header ++ content)[i]? = content[i - header.length]? ∧
      header[(i - header.length) % header.length]? = header[i % header.length]? := by
    intro i hle
    rw [List.getElem?_append_right hle, Nat.mod_eq_sub_mod hle]
    exact ⟨rfl, rfl⟩
  have hinside : ∀ i, i < header.length →
      (header ++ content)[i]? = header[i % header.length]? := by
    intro i hlt
    rw [List.getElem?_append_left hlt, Nat.mod_eq_of_lt hlt]
  constructor
  · intro hprefix i
    induction i using Nat.strong_induction_on with
    | _ i ih =>
      intro hi
      have hsame : content[i]? = (header ++ content)[i]? := by
        obtain ⟨tail, htail⟩ := hprefix
        rw [← htail, List.getElem?_append_left hi]
      rcases Nat.lt_or_ge i header.length with hlt | hle
      · rw [hsame, hinside i hlt]
      · rw [hsame, (hbehind i hle).1, ih (i - header.length) (by omega) (by omega),
          (hbehind i hle).2]
  · intro hperiodic
    rw [List.prefix_iff_getElem?]
    intro i hi
    rw [← List.getElem?_eq_getElem hi, hperiodic i hi]
    rcases Nat.lt_or_ge i header.length with hlt | hle
    · exact hinside i hlt
    · rw [(hbehind i hle).1, hperiodic (i - header.length) (by omega), (hbehind i hle).2]

/-! ### Main result -/

/-- The server stores the file of the client in every run of its receive loop that ends without an
error. -/
def StoredAsSent (clientId : ClientId) (jobId : UInt32) (file : PyClient.File) : Prop :=
  ∀ calls r, run UploadReceive.step (.init (PyClient.sendFileTcp clientId jobId file)
      (UInt64.ofNat file.content.length)) calls = some r →
    r.Over → r.phase ≠ .left → r.file = file.content

/-- A file is stored as it is exactly if it repeats the header that the client sends in front of
it. -/
theorem storedAsSent_iff (clientId : ClientId) (jobId : UInt32) (file : PyClient.File) :
    StoredAsSent clientId jobId file ↔ ∀ i < file.content.length,
      file.content[i]? = (PyClient.fileHeader clientId jobId file)[
        i % (PyClient.fileHeader clientId jobId file).length]? := by
  have hsize : (UInt64.ofNat file.content.length).toNat = file.content.length :=
    UInt64.toNat_ofNat_of_lt file.content_lt
  have hheader : PyClient.fileHeader clientId jobId file ≠ [] := by
    intro hnil
    have hlen := congrArg List.length hnil
    simp only [PyClient.fileHeader, List.length_append, Vector.length_toList] at hlen
    rw [List.length_nil] at hlen
    omega
  have hstream := PyClient.sendFileTcp_eq clientId jobId file
  rw [← prefix_append_self_iff hheader, ← hstream, List.prefix_iff_eq_take]
  constructor
  · intro hstored
    have hlong : file.content.length
        ≤ (PyClient.sendFileTcp clientId jobId file).length := by
      rw [hstream, List.length_append]
      omega
    have hinit : run UploadReceive.step (.init (PyClient.sendFileTcp clientId jobId file)
        (UInt64.ofNat file.content.length)) [] = some (.init _ _) := rfl
    obtain ⟨calls, r, hrun, hover, hleft⟩ := exists_run_to_end hinit rfl (hsize.trans_le hlong)
    obtain ⟨hfile, -⟩ := (ReceiveExact.of_run hrun).file_eq hover hleft
    rwa [hstored calls r hrun hover hleft, hsize] at hfile
  · intro htake calls r hrun hover hleft
    obtain ⟨hfile, -⟩ := (ReceiveExact.of_run hrun).file_eq hover hleft
    rw [hfile, hsize]
    exact htake.symm

/-- The file `a` with the byte 1. -/
def byteFile : PyClient.File := ⟨cstr "a", [1], by decide, by decide⟩

/-- It is stored as the first byte of the client id. -/
theorem not_storedAsSent_byteFile : ¬ ∀ clientId jobId file, StoredAsSent clientId jobId file := by
  intro h
  have hrun : run UploadReceive.step
      (.init (PyClient.fileHeader (Vector.replicate 16 0) 7 byteFile ++ [1]) 1)
      [.recv (some 1), .write (some 1)]
      = some ⟨(PyClient.fileHeader (Vector.replicate 16 0) 7 byteFile ++ [1]).drop 1, [0], [0], 0,
        1, .receiving⟩ := by decide
  have hstored := h (Vector.replicate 16 0) 7 byteFile
  rw [StoredAsSent, PyClient.sendFileTcp_eq] at hstored
  exact absurd (hstored _ _ hrun (.inr ⟨rfl, rfl⟩) (by decide)) (by decide)

end Pcd
