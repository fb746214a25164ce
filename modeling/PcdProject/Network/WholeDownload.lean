import PcdProject.Network.WholeUpload
import PcdProject.Server.DownloadThread
import PcdProject.Server.JobPaths

/-!
# Downloads from file to file

The bytes of a download: the loop of `download_thread`, the connection, and the loop of
`download_file`, which is the receive loop of `process_upload` without its second counter. The three
move independently. `download_thread` closes the connection as soon as `send` accepts less than it
was given, so that what arrives is a prefix of the file.
-/

namespace Pcd

open Transition CLayout FilePath

/-! ### The transfer -/

/-- Where `download_thread` is with its job. -/
inductive ServePhase where
  | verifying
  | opening
  | reading
  | sending (chunk : Bytes)
  | closed
  deriving DecidableEq

/-- What `download_thread` does with its job. `read` and `send` have the result `none` for -1. -/
inductive ServeAction where
  | verify (valid : Bool)
  | openFile (ok : Bool)
  | read (result : Option ℕ)
  | send (result : Option ℕ)

/-- A download: what `read` has not returned yet, what `send` accepted and did not arrive yet, and
the loop of `download_file`. -/
structure Transfer where
  unread : Bytes
  phase : ServePhase
  inFlight : Bytes
  client : ReceiveLoop
  deriving DecidableEq

/-- `arrive n` makes the next `n` bytes available to `recv`. -/
inductive TransferAction where
  | serve (a : ServeAction)
  | arrive (n : ℕ)
  | client (a : ReceiveAction)

/-- `bytes_remaining` of `download_file`, from the datagram with the answer. -/
def announcedSize (d : Bytes) : ℕ := (readU64 DownloadResponse.layout 3 d).toNat

namespace Transfer

def init (content : Bytes) (fileSize : ℕ) : Transfer where
  unread := content
  phase := .verifying
  inFlight := []
  client := .init [] fileSize

/-- A step of `download_thread`, its buffer being of the size of the client's. -/
def serveStep (t : Transfer) (a : ServeAction) : Option Transfer :=
  match t.phase, a with
  | .verifying, .verify valid => some { t with phase := if valid then .opening else .closed }
  | .opening, .openFile ok    => some { t with phase := if ok then .reading else .closed }
  | .reading, .read none      => some { t with phase := .closed }
  | .reading, .read (some 0)  => if t.unread = [] then some { t with phase := .closed } else none
  | .reading, .read (some n)  =>
    if n ≤ min FILE_BUFFER_SIZE t.unread.length then
      some { t with unread := t.unread.drop n, phase := .sending (t.unread.take n) }
    else none
  | .sending chunk, .send result =>
    if result.getD 0 ≤ chunk.length then
      some { t with
        inFlight := t.inFlight ++ chunk.take (result.getD 0)
        phase := if result = some chunk.length then .reading else .closed }
    else none
  | _, _ => none

def step (t : Transfer) : TransferAction → Option Transfer
  | .serve a  => t.serveStep a
  | .arrive n =>
    if n ≤ t.inFlight.length then
      some { t with
        inFlight := t.inFlight.drop n
        client := { t.client with stream := t.client.stream ++ t.inFlight.take n } }
    else none
  | .client a => (t.client.step a).map fun r => { t with client := r }

/-- The transfer of the file under the path of the job, after the answer `d`. -/
def start (files : Bytes → Option Bytes) (job : DownloadJob) (d : Bytes) : Option Transfer :=
  (files (downloadPath job.clientId job.jobId job.filename)).map fun content =>
    .init content (announcedSize d)

/-- The transfer after the answer `d`. Where there is no file under the path, none is read. -/
def after (files : Bytes → Option Bytes) (job : DownloadJob) (d : Bytes) : Transfer :=
  (start files job d).getD (.init [] (announcedSize d))

/-- The location of `download_thread`. -/
def location (t : Transfer) (conn : Connection) (job : DownloadJob) : DownloadThread :=
  match t.phase with
  | .verifying           => .verifying conn job
  | .opening             => .opening conn job
  | .reading | .sending _ => .sending conn job
  | .closed              => .accepting

/-- What is still to be sent, `none` if the connection is closed. -/
def pending (t : Transfer) : Option Bytes :=
  match t.phase with
  | .verifying | .opening | .reading => some t.unread
  | .sending chunk                   => some (chunk ++ t.unread)
  | .closed                          => none

/-- What `send` has accepted, as long as the client stores all that it receives. -/
def accepted (t : Transfer) : Bytes := t.client.stored ++ t.client.stream ++ t.inFlight

end Transfer

/-! ### What a step of the server changes -/

/-- Of what is pending, `sent` goes on the connection. This is closed then, or the rest stays
pending. -/
structure Transfer.Sends (t t' : Transfer) (sent rest : Bytes) : Prop where
  before : t.pending = some (sent ++ rest)
  after : t'.pending = none ∨ t'.pending = some rest
  inFlight_eq : t'.inFlight = t.inFlight ++ sent
  client_eq : t'.client = t.client

section Serve

variable {t t' : Transfer}

lemma Transfer.Sends.quiet {rest : Bytes} (hbefore : t.pending = some rest)
    (hafter : t'.pending = none ∨ t'.pending = some rest) (hflight : t'.inFlight = t.inFlight)
    (hclient : t'.client = t.client) : t.Sends t' [] rest :=
  ⟨hbefore, hafter, by rw [hflight, List.append_nil], hclient⟩

lemma Transfer.Sends.of_serveStep {a : ServeAction} (h : t.serveStep a = some t') :
    ∃ sent rest, t.Sends t' sent rest := by
  unfold serveStep at h
  split at h
  · rename_i valid hphase
    cases h
    refine ⟨[], t.unread, .quiet (by rw [pending, hphase]) ?_ rfl rfl⟩
    cases valid
    · exact .inl rfl
    · exact .inr rfl
  · rename_i ok hphase
    cases h
    refine ⟨[], t.unread, .quiet (by rw [pending, hphase]) ?_ rfl rfl⟩
    cases ok
    · exact .inl rfl
    · exact .inr rfl
  · rename_i hphase
    cases h
    exact ⟨[], t.unread, .quiet (by rw [pending, hphase]) (.inl rfl) rfl rfl⟩
  · rename_i hphase
    split_ifs at h
    cases h
    exact ⟨[], t.unread, .quiet (by rw [pending, hphase]) (.inl rfl) rfl rfl⟩
  · rename_i n _ hphase
    split_ifs at h
    cases h
    refine ⟨[], t.unread, .quiet (by rw [pending, hphase]) (.inr ?_) rfl rfl⟩
    exact congrArg some (List.take_append_drop n t.unread)
  · rename_i chunk result hphase
    have hbefore : t.pending = some
        (chunk.take (result.getD 0) ++ (chunk.drop (result.getD 0) ++ t.unread)) := by
      rw [pending, hphase, ← List.append_assoc, List.take_append_drop]
    split_ifs at h with hle hall <;> cases h
    · refine ⟨_, _, hbefore, .inr ?_, rfl, rfl⟩
      rw [hall, Option.getD_some, List.drop_length, List.nil_append]
      rfl
    · exact ⟨_, _, hbefore, .inl rfl, rfl, rfl⟩
  · cases h

/-- The loop is the last step of `download_thread`, with the bytes that this one leaves out. -/
lemma run_downloadStep_of_serveStep {s : Server} {conn : Connection} {job : DownloadJob}
    {a : ServeAction} (hpc : s.downloadThread = t.location conn job)
    (hvalid : ∀ valid, a = .verify valid → valid = clientValid s.clients job conn)
    (h : t.serveStep a = some t') :
    ∃ as, run Server.downloadStep s as
      = some { s with downloadThread := t'.location conn job } := by
  have hstay : t'.location conn job = t.location conn job →
      run Server.downloadStep s [] = some { s with downloadThread := t'.location conn job } := by
    intro hsame
    rw [hsame, ← hpc]
    rfl
  unfold Transfer.serveStep at h
  split at h
  · rename_i valid hphase
    cases h
    refine ⟨[.verify], ?_⟩
    rw [Transfer.location, hphase] at hpc
    simp only [run_cons, run_nil, Server.downloadStep, hpc, ← hvalid valid rfl]
    cases valid <;> rfl
  · rename_i ok hphase
    cases h
    refine ⟨[.openFile ok], ?_⟩
    rw [Transfer.location, hphase] at hpc
    simp only [run_cons, run_nil, Server.downloadStep, hpc]
    cases ok <;> rfl
  · rename_i hphase
    cases h
    rw [Transfer.location, hphase] at hpc
    exact ⟨[.finish], by simp [Server.downloadStep, hpc, Transfer.location]⟩
  · rename_i hphase
    split_ifs at h
    cases h
    rw [Transfer.location, hphase] at hpc
    exact ⟨[.finish], by simp [Server.downloadStep, hpc, Transfer.location]⟩
  · rename_i n _ hphase
    split_ifs at h
    cases h
    exact ⟨[], hstay (by simp [Transfer.location, hphase])⟩
  · rename_i chunk result hphase
    split_ifs at h with hle hall <;> cases h
    · exact ⟨[], hstay (by simp [Transfer.location, hphase])⟩
    · rw [Transfer.location, hphase] at hpc
      exact ⟨[.finish], by simp [Server.downloadStep, hpc, Transfer.location]⟩
  · cases h

end Serve

/-! ### What is on the way -/

/-- While `download_file` receives: what `send` accepted is a prefix of the file, and unless the
connection is closed, the rest is pending. -/
structure Flow (content : Bytes) (t : Transfer) : Prop where
  size : t.client.stored.length + t.client.remaining = content.length
  sent : t.accepted <+: content
  rest : ∀ rest, t.pending = some rest → t.accepted ++ rest = content

/-- What `download_file` leaves behind is a prefix of the file, and the file exactly if
`bytes_remaining` is 0. -/
structure Outcome (content : Bytes) (r : ReceiveLoop) : Prop where
  stored : r.stored <+: content
  whole  : r.remaining = 0 ↔ r.stored = content

structure TransferInv (content : Bytes) (t : Transfer) : Prop where
  running : t.client.ended = false → Flow content t
  ended   : t.client.ended = true → Outcome content t.client

section TransferInv

variable {content : Bytes} {t t' : Transfer}

lemma Flow.init (content : Bytes) : Flow content (Transfer.init content content.length) where
  size := Nat.zero_add _
  sent := List.nil_prefix
  rest := by
    rintro rest ⟨⟩
    rfl

/-- A step of the server. -/
lemma Flow.sends {sent rest : Bytes} (ht : Flow content t) (h : t.Sends t' sent rest) :
    Flow content t' := by
  have haccepted : t'.accepted = t.accepted ++ sent := by
    rw [Transfer.accepted, Transfer.accepted, h.client_eq, h.inFlight_eq, ← List.append_assoc]
  have hcontent : t'.accepted ++ rest = content := by
    rw [haccepted, List.append_assoc]
    exact ht.rest _ h.before
  refine ⟨?_, ⟨rest, hcontent⟩, ?_⟩
  · rw [h.client_eq]
    exact ht.size
  · intro rest' hrest'
    rcases h.after with hclosed | hafter
    · rw [hclosed] at hrest'
      cases hrest'
    · obtain rfl : rest = rest' := Option.some.inj (hafter.symm.trans hrest')
      exact hcontent

/-- Bytes that only move on the way to the client's file. -/
lemma Flow.congr (ht : Flow content t) (hpending : t'.pending = t.pending)
    (haccepted : t'.accepted = t.accepted)
    (hsize : t'.client.stored.length + t'.client.remaining
      = t.client.stored.length + t.client.remaining) : Flow content t' := by
  refine ⟨hsize.trans ht.size, ?_, ?_⟩
  · rw [haccepted]
    exact ht.sent
  · rw [haccepted, hpending]
    exact ht.rest

lemma Flow.prefix_stored (ht : Flow content t) (n : ℕ) :
    t.client.stored ++ t.client.stream.take n <+: content := by
  refine List.IsPrefix.trans ?_ ht.sent
  rw [Transfer.accepted, List.append_assoc, List.prefix_append_right_inj]
  exact (List.take_prefix _ _).trans (List.prefix_append _ _)

/-- With bytes still to come the file is not complete. -/
lemma Outcome.of_remaining {r : ReceiveLoop} (hfront : r.stored <+: content)
    (hlt : r.stored.length < content.length) (hpos : 0 < r.remaining) : Outcome content r where
  stored := hfront
  whole := by
    constructor
    · intro hzero
      exact absurd hzero hpos.ne'
    · intro heq
      exact absurd (congrArg List.length heq) hlt.ne

/-- A step of `download_file`. -/
lemma TransferInv.client_step {a : ReceiveAction} {r : ReceiveLoop} (ht : TransferInv content t)
    (h : t.client.step a = some r) : TransferInv content { t with client := r } := by
  cases ReceiveRule.of_step h with
  | recv received hended hpos hremaining hstream =>
    refine ⟨fun _ => ?_, fun htrue => absurd (hended.symm.trans htrue) Bool.false_ne_true⟩
    apply (ht.running hended).congr
    · rfl
    · simp [Transfer.accepted]
    · have hle := (le_min_iff.mp hremaining).2
      rw [List.length_append, List.length_take_of_le hstream]
      dsimp only
      omega
  | shortWrite received written hended hpos hremaining hlt =>
    have hflow := ht.running hended
    have hsize := hflow.size
    have hle := (le_min_iff.mp hremaining).2
    refine ⟨fun hfalse => absurd hfalse.symm Bool.false_ne_true, fun _ => ?_⟩
    apply Outcome.of_remaining
    · exact hflow.prefix_stored written
    · rw [List.length_append, List.length_take]
      omega
    · exact lt_of_lt_of_le hpos hle
  | hangup error hended hpos hend =>
    have hflow := ht.running hended
    have hsize := hflow.size
    have hfront := hflow.prefix_stored 0
    rw [List.take_zero, List.append_nil] at hfront
    refine ⟨fun hfalse => absurd hfalse.symm Bool.false_ne_true, fun _ => ?_⟩
    exact .of_remaining hfront (by dsimp only; omega) hpos
  | close hended hzero =>
    have hflow := ht.running hended
    have hsize := hflow.size
    have hfront := hflow.prefix_stored 0
    rw [List.take_zero, List.append_nil] at hfront
    refine ⟨fun hfalse => absurd hfalse.symm Bool.false_ne_true, fun _ => ⟨hfront, ?_⟩⟩
    exact iff_of_true hzero (hfront.eq_of_length (by omega))

lemma TransferInv.step {a : TransferAction} (ht : TransferInv content t)
    (h : t.step a = some t') : TransferInv content t' := by
  cases a with
  | serve a =>
    obtain ⟨sent, rest, hsends⟩ := Transfer.Sends.of_serveStep h
    refine ⟨?_, ?_⟩
    · rw [hsends.client_eq]
      exact fun hended => (ht.running hended).sends hsends
    · rw [hsends.client_eq]
      exact ht.ended
  | arrive n =>
    simp only [Transfer.step] at h
    split_ifs at h with hle
    cases h
    refine ⟨fun hended => (ht.running hended).congr rfl ?_ rfl, fun hended => ?_⟩
    · simp [Transfer.accepted]
    · exact ⟨(ht.ended hended).stored, (ht.ended hended).whole⟩
  | client a =>
    obtain ⟨r, hr, rfl⟩ := Option.map_eq_some_iff.mp h
    exact ht.client_step hr

lemma TransferInv.of_run {as : List TransferAction}
    (h : run Transfer.step (.init content content.length) as = some t) : TransferInv content t := by
  refine run_invariant (fun _ _ _ ht h => TransferInv.step ht h) ?_ h
  exact ⟨fun _ => Flow.init content, by rintro ⟨⟩⟩

lemma TransferInv.prefix_stored (ht : TransferInv content t) : t.client.stored <+: content := by
  cases hended : t.client.ended with
  | false =>
    have hfront := (ht.running hended).prefix_stored 0
    rwa [List.take_zero, List.append_nil] at hfront
  | true => exact (ht.ended hended).stored

end TransferInv

/-! ### No file -/

/-- Nothing is sent. -/
structure NothingSent (size : ℕ) (t : Transfer) : Prop where
  pending   : ∀ rest ∈ t.pending, rest = []
  accepted  : t.accepted = []
  remaining : t.client.remaining = size

namespace NothingSent

variable {size : ℕ} {t t' : Transfer}

lemma stored (ht : NothingSent size t) : t.client.stored = [] :=
  (List.append_eq_nil_iff.mp (List.append_eq_nil_iff.mp ht.accepted).1).1

lemma client_step {a : ReceiveAction} {r : ReceiveLoop} (ht : NothingSent size t)
    (h : t.client.step a = some r) : NothingSent size { t with client := r } := by
  have haccepted := ht.accepted
  simp only [Transfer.accepted, List.append_eq_nil_iff] at haccepted
  obtain ⟨⟨hstored, hstream⟩, hflight⟩ := haccepted
  refine ⟨ht.pending, ?_, ?_⟩
  · cases ReceiveRule.of_step h <;> simp [Transfer.accepted, hstored, hstream, hflight]
  · cases ReceiveRule.of_step h with
    | recv received _ hpos _ hle =>
      rw [hstream] at hle
      exact absurd hle hpos.not_ge
    | shortWrite | hangup | close => exact ht.remaining

lemma step {a : TransferAction} (ht : NothingSent size t) (h : t.step a = some t') :
    NothingSent size t' := by
  cases a with
  | serve a =>
    obtain ⟨sent, rest, hsends⟩ := Transfer.Sends.of_serveStep h
    obtain ⟨rfl, rfl⟩ := List.append_eq_nil_iff.mp (ht.pending _ hsends.before)
    refine ⟨?_, ?_, ?_⟩
    · rcases hsends.after with hafter | hafter <;> simp [hafter]
    · rw [Transfer.accepted, hsends.client_eq, hsends.inFlight_eq, List.append_nil]
      exact ht.accepted
    · rw [hsends.client_eq]
      exact ht.remaining
  | arrive n =>
    simp only [Transfer.step] at h
    split_ifs at h
    cases h
    refine ⟨ht.pending, ?_, ht.remaining⟩
    rw [← ht.accepted]
    simp [Transfer.accepted]
  | client a =>
    obtain ⟨r, hr, rfl⟩ := Option.map_eq_some_iff.mp h
    exact ht.client_step hr

lemma of_run {as : List TransferAction} (h : run Transfer.step (.init [] size) as = some t) :
    NothingSent size t := by
  refine run_invariant (fun _ _ _ ht h => NothingSent.step ht h) ⟨?_, rfl, rfl⟩ h
  rintro rest ⟨⟩
  rfl

end NothingSent

/-! ### The announced size -/

/-- The client reads the size that `stat` reported. -/
lemma announcedSize_downloadAck (req : DownloadRequest) (name : Bytes) (size : UInt64)
    (unset : Unset) :
    announcedSize ((downloadAck req name (some size)).datagram unset) = size.toNat := by
  have hlt : 3 < DownloadResponse.layout.length := by decide
  have hslice : slice DownloadResponse.layout 3 ((downloadAck req name (some size)).datagram unset)
      = leBytes 8 size.toNat :=
    (downloadAck req name (some size)).slice_datagram unset hlt
  rw [announcedSize, readU64, hslice]
  exact congrArg UInt64.toNat (UInt64.ofNat_leBytes size)

/-- The size in the answer is that of the file. -/
lemma announcedSize_reply {env : Env} {src : SockAddr} {tables : Tables} {req : DownloadRequest}
    {name content : Bytes} {info : StatInfo} {reply : Reply} {unset : Unset}
    (hstat : env.stat (reportedPath req name) = some info)
    (hsize : info.size.toNat = content.length)
    (hreply : (handleDownloadRequest env src req name tables).2 = some reply) :
    announcedSize (reply.datagram unset) = content.length := by
  have hstat' : env.stat (downloadPath req.clientId req.jobId name) = some info := hstat
  simp only [handleDownloadRequest, hstat'] at hreply
  rw [← Option.some.inj hreply, announcedSize_downloadAck, hsize]

/-! ### Main result -/

section Main

variable (src : SockAddr) (tables : Tables) (req : DownloadRequest) (name : Bytes) (unset : Unset)

/-- Whatever file `handle_download_request` finds under the name: at every moment of the transfer
that follows, the client has written a prefix of it, and it reports success at the end exactly if
it has written the file. -/
def DownloadedExactly : Prop :=
  ∀ (env : Env) (files : Files) (content : Bytes) (info : StatInfo) (reply : Reply)
    (as : List TransferAction) (t : Transfer),
    env.stat (reportedPath req name) = some info →
    files.read (reportedPath req name) = some content →
    info.size.toNat = content.length →
    (handleDownloadRequest env src req name tables).2 = some reply →
    run Transfer.step (.after files.read (.create req name src) (reply.datagram unset)) as
      = some t →
      t.client.stored <+: content ∧
        (t.client.ended = true → (t.client.remaining = 0 ↔ t.client.stored = content))

/-- There can be a file under the name, as far as `handle_download_request` uses it, and one under
the name as `download_queue` holds it, which is another name. -/
def Diverted (name : Bytes) : Prop :=
  MAX_FILENAME_LEN ≤ name.length ∧ name[255]? ≠ some SLASH ∧ Nameable (name.take 486) ∧
    Nameable (name.take 255)

instance (name : Bytes) : Decidable (Diverted name) := inferInstanceAs (Decidable (_ ∧ _))

variable {name}

lemma after_create (files : Bytes → Option Bytes) (d : Bytes) :
    Transfer.after files (.create req name src) d
      = .init ((files (sentPath req name src)).getD []) (announcedSize d) := by
  rw [Transfer.after, Transfer.start]
  change (Option.map _ (files (sentPath req name src))).getD _ = _
  cases files (sentPath req name src) <;> rfl

lemma reportedPath_eq (req : DownloadRequest) (name : Bytes) :
    reportedPath req name = jobDirectory req.clientId req.jobId ++ SLASH :: name.take 486 :=
  downloadPath_eq _ _ _

/-- The path of the file that is sent goes on with the bytes that the queue does not hold. -/
lemma sentPath_prefix :
    reportedPath req name = sentPath req name src ++ (name.take 486).drop 255 := by
  have hcut : (name.take 486).take 255 = name.take 255 := List.take_take
  rw [reportedPath_eq, sentPath_eq, ← hcut, List.append_assoc, List.cons_append,
    List.take_append_drop]

/-- What the queue cuts off begins with byte 255. -/
lemma drop_take_eq_cons {b : UInt8} {rest : Bytes} :
    (name.take 486).drop 255 = b :: rest → name[255]? = some b := by
  intro h
  have hget : ((name.take 486).drop 255)[0]? = some b := by rw [h]; rfl
  rwa [List.getElem?_drop, List.getElem?_take_of_lt (by decide)] at hget

/-- Two files of one byte each. -/
lemma not_downloadedExactly (h : Diverted name) :
    ¬ DownloadedExactly src tables req name unset := by
  obtain ⟨hlen, hslash, hreported, hsent⟩ := h
  unfold MAX_FILENAME_LEN at hlen
  have hpath : reportedPath req name = sentPath req name src ++ (name.take 486).drop 255 :=
    sentPath_prefix src req
  have hcut : (name.take 486).drop 255 ≠ [] := by
    intro hnil
    have hle := List.drop_eq_nil_iff.mp hnil
    rw [List.length_take] at hle
    omega
  have hne : sentPath req name src ≠ reportedPath req name := by
    rw [hpath]
    exact fun heq => hcut (List.self_eq_append_right.mp heq)
  have hnameable : Nameable (sentPath req name src) := by
    rw [sentPath, nameable_downloadPath]
    exact (congrArg Nameable (bounded_take name)).mpr hsent
  let files : Files := .pair (reportedPath req name) (sentPath req name src) [1] [2]
    ((nameable_downloadPath _ _ _).mpr hreported) hnameable
    (by
      intro rest heq
      rw [hpath, List.append_assoc] at heq
      have := congrArg List.length heq
      simp at this)
    (by
      intro rest heq
      rw [hpath, List.append_cancel_left_eq] at heq
      exact hslash (drop_take_eq_cons heq))
  have hread : files.read (reportedPath req name) = some [1] := if_pos rfl
  have hsentRead : files.read (sentPath req name src) = some [2] := by
    change (if _ then _ else _) = _
    rw [if_neg hne, if_pos rfl]
  let env : Env := ⟨0, Vector.replicate 16 0, fun _ => some ⟨false, 1⟩, fun _ => true, true, true⟩
  have hstart : Transfer.after files.read (.create req name src)
      ((downloadAck req name (some 1)).datagram unset) = .init [2] 1 := by
    rw [after_create, announcedSize_downloadAck, hsentRead]
    rfl
  have hrun : run Transfer.step (.init [2] 1) [.serve (.verify true), .serve (.openFile true),
      .serve (.read (some 1)), .serve (.send (some 1)), .arrive 1, .client (.recv 1 1)]
      = some ⟨[], .reading, [], [], [2], 0, 1, false⟩ := by decide
  intro h
  have hprefix := (h env files [1] ⟨false, 1⟩ _ _ _ rfl hread rfl rfl (hstart ▸ hrun)).1
  exact absurd hprefix (by decide)

/-- If there are files under both paths, they are the same. -/
lemma sentPath_eq_reportedPath {files : Files} {content content' : Bytes}
    (hname : ¬ Diverted name) (hread : files.read (reportedPath req name) = some content)
    (hsent : files.read (sentPath req name src) = some content') :
    sentPath req name src = reportedPath req name := by
  have hpath : reportedPath req name = sentPath req name src ++ (name.take 486).drop 255 :=
    sentPath_prefix src req
  cases hcut : (name.take 486).drop 255 with
  | nil => rw [hpath, hcut, List.append_nil]
  | cons b rest =>
    exfalso
    refine hname ⟨?_, ?_, ?_, ?_⟩
    · by_contra hshort
      have hnil : (name.take 486).drop 255 = [] := by
        rw [List.drop_eq_nil_iff, List.length_take]
        unfold MAX_FILENAME_LEN at hshort
        omega
      rw [hnil] at hcut
      cases hcut
    · intro hslash
      obtain rfl : SLASH = b :=
        Option.some.inj (hslash.symm.trans (drop_take_eq_cons hcut))
      rw [hpath, hcut] at hread
      rw [files.leaf _ _ _ hread] at hsent
      cases hsent
    · exact (nameable_downloadPath _ _ _).mp (files.nameable _ _ hread)
    · have hnameable := files.nameable _ _ hsent
      rw [sentPath, nameable_downloadPath] at hnameable
      exact (congrArg Nameable (bounded_take name)).mp hnameable

end Main

end Pcd
