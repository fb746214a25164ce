import PcdProject.Server.State

/-!
# The listing of the pending jobs

`show_processing_queue` collects the entries in a buffer and sends the buffer when less than 256
bytes are left. An entry may be longer than that: then `snprintf` cuts it off and returns the length
that it would have had, and `send` reads past the buffer.
-/

namespace Pcd

/-- `sizeof(buffer)` -/
def LISTING_BUFFER_SIZE : ℕ := 4096

/-- The offset from which on the buffer is sent. -/
def LISTING_LIMIT : ℕ := LISTING_BUFFER_SIZE - 256

/-- `%zu`, `%u` and `%d` of a number that is not negative. -/
def decimal (n : ℕ) : Bytes := cstr (toString n)

lemma isdigit_of_mem_decimal {n : ℕ} {c : UInt8} (h : c ∈ decimal n) : 48 ≤ c ∧ c ≤ 57 := by
  obtain ⟨d, hd, rfl⟩ := List.mem_map.mp h
  have hdigit : d.isDigit = true := by
    have hmem : d ∈ Nat.toDigits 10 n := by
      simpa [Nat.toString_eq_repr, Nat.repr_eq_ofList_toDigits] using hd
    exact Nat.isDigit_of_mem_toDigits (by decide) (by decide) hmem
  simp only [Char.isDigit, Bool.and_eq_true, decide_eq_true_eq] at hdigit
  have hlow : 48 ≤ d.toNat := hdigit.1
  have hhigh : d.toNat ≤ 57 := hdigit.2
  have hnat : (UInt8.ofNat d.toNat).toNat = d.toNat := by
    rw [UInt8.toNat_ofNat', Nat.mod_eq_of_lt (by omega)]
  rw [UInt8.le_iff_toNat_le, UInt8.le_iff_toNat_le, hnat]
  exact ⟨hlow, hhigh⟩

lemma length_decimal_le {n k : ℕ} (hk : 0 < k) (h : n < 10 ^ k) : (decimal n).length ≤ k := by
  rw [decimal, cstr, List.length_map, String.length_toList]
  exact (Nat.length_repr_le_iff hk).mpr h

lemma decimal_ne_nil (n : ℕ) : decimal n ≠ [] := by
  have hpos : 0 < n.repr.length := Nat.length_repr_pos
  rw [decimal, cstr, ← List.length_pos_iff, List.length_map, String.length_toList]
  exact hpos

/-- The text of a job at index `i`; `ctime` is the text of `ctime_r` without its newline. -/
def queueEntry (ctime : ℤ → Bytes) (i : ℕ) (job : PendingJob) : Bytes :=
  decimal (i + 1) ++ cstr ". Client " ++ (job.clientId.toList.map hex02).flatten
    ++ cstr ", Job ID: " ++ decimal job.jobId.toNat ++ cstr "\n"
    ++ cstr "    Command: " ++ job.command ++ cstr "\n"
    ++ cstr "    Files: " ++ decimal job.filesReceived ++ cstr " received out of "
    ++ decimal job.fileCount ++ cstr "\n"
    ++ cstr "    Last update: " ++ ctime job.lastUpdate ++ cstr "\n"

def queueHeader : Bytes := cstr "Processing queue:\n"

def queueEntries (ctime : ℤ → Bytes) (jobs : List PendingJob) : List Bytes :=
  jobs.mapIdx (queueEntry ctime)

/-! ### The buffer -/

/-- `buffer`, `offset` and the bytes that were passed to `send`. -/
structure Listing where
  buffer : Bytes
  offset : ℕ
  sent : Bytes

namespace Listing

/-- `offset += snprintf(buffer + offset, sizeof(buffer) - offset, ...)`; `none` if the difference
wraps around. -/
def snprintf (s : Listing) (text : Bytes) : Option Listing :=
  if s.offset > LISTING_BUFFER_SIZE then none
  else
    let room := LISTING_BUFFER_SIZE - s.offset
    let written := if room = 0 then [] else text.take (room - 1) ++ [0]
    some { s with
      buffer := s.buffer.take s.offset ++ written ++ s.buffer.drop (s.offset + written.length)
      offset := s.offset + text.length }

/-- `send(client_fd, buffer, offset, 0)`; `none` if it reads past the buffer. -/
def send (s : Listing) : Option Listing :=
  if s.offset > LISTING_BUFFER_SIZE then none
  else some { s with sent := s.sent ++ s.buffer.take s.offset }

/-- The loop over the jobs, and the last `send`. -/
def entries (s : Listing) : List Bytes → Option Bytes
  | []            => if s.offset > 0 then s.send.map Listing.sent else some s.sent
  | text :: texts =>
    (s.snprintf text).bind fun s =>
      if s.offset ≥ LISTING_LIMIT then s.send.bind fun s => entries { s with offset := 0 } texts
      else s.entries texts

end Listing

/-- The text of the branch for the empty table, with its terminator. -/
def emptyQueueText : Bytes := cstr "[Queue is empty]\n" ++ [0]

/-- The bytes that `show_processing_queue` passes to `send`; `none` if it reads or writes past a
buffer. The content of its buffer is `stack` in the beginning. -/
def showProcessingQueue (ctime : ℤ → Bytes) (stack : Vector UInt8 LISTING_BUFFER_SIZE)
    (jobs : List PendingJob) : Option Bytes :=
  if jobs = [] then
    if 23 ≤ emptyQueueText.length then some (emptyQueueText.take 23) else none
  else
    (Listing.snprintf ⟨stack.toList, 0, []⟩ queueHeader).bind fun s =>
      s.entries (queueEntries ctime jobs)

/-- Cut into batches, the first of which begins with `offset` bytes, and each of which ends as soon
as it reaches the limit, the texts of these lengths have batches that leave a byte of the buffer
free. -/
def BatchesFit (offset : ℕ) : List ℕ → Prop
  | []        => True
  | n :: rest =>
    offset + n < LISTING_BUFFER_SIZE ∧
      BatchesFit (if offset + n ≥ LISTING_LIMIT then 0 else offset + n) rest

instance : ∀ (offset : ℕ) (lengths : List ℕ), Decidable (BatchesFit offset lengths)
  | _, []             => .isTrue trivial
  | offset, n :: rest =>
    have := instDecidableBatchesFit (if offset + n ≥ LISTING_LIMIT then 0 else offset + n) rest
    inferInstanceAs (Decidable (_ ∧ _))

/-! ### Complete listings -/

namespace Listing

variable {s : Listing} {text : Bytes} {texts : List Bytes}

/-- A text that leaves a byte free is written behind what the buffer holds. -/
lemma snprintf_of_lt (hlen : s.buffer.length = LISTING_BUFFER_SIZE)
    (hfit : s.offset + text.length < LISTING_BUFFER_SIZE) :
    ∃ buffer, s.snprintf text = some ⟨buffer, s.offset + text.length, s.sent⟩ ∧
      buffer.length = LISTING_BUFFER_SIZE ∧
      buffer.take (s.offset + text.length) = s.buffer.take s.offset ++ text := by
  have hroom : LISTING_BUFFER_SIZE - s.offset ≠ 0 := by omega
  have htext : text.take (LISTING_BUFFER_SIZE - s.offset - 1) = text :=
    List.take_of_length_le (by omega)
  have hheld : (s.buffer.take s.offset).length = s.offset :=
    List.length_take_of_le (by omega)
  rw [snprintf, if_neg (by omega)]
  refine ⟨_, rfl, ?_, ?_⟩
  · simp only [if_neg hroom, htext, List.length_append, hheld, List.length_drop,
      List.length_singleton]
    omega
  · simp only [if_neg hroom, htext]
    rw [List.append_assoc, List.take_append, hheld, List.take_of_length_le (by omega)]
    simp

/-- A text of the length of the room loses its last byte. -/
lemma snprintf_of_eq (hlen : s.buffer.length = LISTING_BUFFER_SIZE) (htext : text ≠ [])
    (hfill : s.offset + text.length = LISTING_BUFFER_SIZE) :
    ∃ buffer, s.snprintf text = some ⟨buffer, LISTING_BUFFER_SIZE, s.sent⟩ ∧
      buffer.take LISTING_BUFFER_SIZE = s.buffer.take s.offset ++ (text.dropLast ++ [0]) := by
  have hpos : 0 < text.length := List.length_pos_iff.mpr htext
  have hroom : LISTING_BUFFER_SIZE - s.offset ≠ 0 := by omega
  have hcut : text.take (LISTING_BUFFER_SIZE - s.offset - 1) = text.dropLast := by
    rw [List.dropLast_eq_take]
    congr 1
    omega
  have hheld : (s.buffer.take s.offset).length = s.offset :=
    List.length_take_of_le (by omega)
  rw [snprintf, if_neg (by omega), hfill]
  refine ⟨_, rfl, ?_⟩
  simp only [if_neg hroom, hcut]
  rw [List.drop_of_length_le (by simp; omega), List.append_nil]
  apply List.take_of_length_le
  simp only [List.length_append, hheld, List.length_dropLast, List.length_singleton]
  omega

/-- The offset behind a text that does not fit is past the buffer. -/
lemma snprintf_of_le (text : Bytes) (hoffset : s.offset ≤ LISTING_BUFFER_SIZE) :
    ∃ buffer, s.snprintf text = some ⟨buffer, s.offset + text.length, s.sent⟩ := by
  rw [snprintf, if_neg (by omega)]
  exact ⟨_, rfl⟩

lemma send_of_le (hoffset : s.offset ≤ LISTING_BUFFER_SIZE) :
    s.send = some { s with sent := s.sent ++ s.buffer.take s.offset } :=
  if_neg (by omega)

lemma send_of_gt (hoffset : LISTING_BUFFER_SIZE < s.offset) : s.send = none :=
  if_pos hoffset

lemma sent_snprintf {s' : Listing} (h : s.snprintf text = some s') : s'.sent = s.sent := by
  unfold snprintf at h
  split at h
  · cases h
  · cases h
    rfl

lemma sent_prefix_send {s' : Listing} (h : s.send = some s') : s.sent <+: s'.sent := by
  unfold send at h
  split at h
  · cases h
  · cases h
    exact List.prefix_append _ _

/-- What was sent stays in front. -/
lemma sent_prefix_entries {out : Bytes} (h : s.entries texts = some out) : s.sent <+: out := by
  induction texts generalizing s with
  | nil =>
    simp only [entries] at h
    split at h
    · obtain ⟨s', hs', rfl⟩ := Option.map_eq_some_iff.mp h
      exact sent_prefix_send hs'
    · cases h
      exact List.prefix_rfl
  | cons text texts ih =>
    obtain ⟨s₁, hs₁, h⟩ := Option.bind_eq_some_iff.mp h
    rw [← sent_snprintf hs₁]
    split at h
    · obtain ⟨s₂, hs₂, h⟩ := Option.bind_eq_some_iff.mp h
      have hsent : s₂.sent <+: out := ih (s := { s₂ with offset := 0 }) h
      exact (sent_prefix_send hs₂).trans hsent
    · exact ih h

lemma not_terminated_prefix {rest : Bytes} (hlast : text.getLast? = some 10) :
    ¬ text.dropLast ++ [0] <+: text ++ rest := by
  obtain ⟨body, rfl⟩ := List.getLast?_eq_some_iff.mp hlast
  rw [List.dropLast_concat, List.append_assoc, List.prefix_append_right_inj]
  intro h
  have hzero := (List.cons_prefix_cons.mp h).1
  cases hzero

/-- What would be sent ends past the buffer. -/
lemma entries_cons_of_gt (hoffset : s.offset ≤ LISTING_BUFFER_SIZE)
    (hover : LISTING_BUFFER_SIZE < s.offset + text.length) : s.entries (text :: texts) = none := by
  obtain ⟨buffer, hwrite⟩ := snprintf_of_le text hoffset
  have hfull : s.offset + text.length ≥ LISTING_LIMIT := le_trans (by decide) hover.le
  rw [entries, hwrite, Option.bind_some, if_pos hfull, send_of_gt hover, Option.bind_none]

/-- The terminator has taken the place of the newline. -/
lemma entries_cons_of_eq {rest : Bytes} (hlen : s.buffer.length = LISTING_BUFFER_SIZE)
    (hlast : text.getLast? = some 10) (hfill : s.offset + text.length = LISTING_BUFFER_SIZE) :
    s.entries (text :: texts) ≠ some (s.sent ++ s.buffer.take s.offset ++ (text ++ rest)) := by
  intro h
  have hne : text ≠ [] := by
    rintro rfl
    cases hlast
  obtain ⟨buffer, hwrite, hheld⟩ := snprintf_of_eq hlen hne hfill
  have hfull : LISTING_BUFFER_SIZE ≥ LISTING_LIMIT := by decide
  rw [entries, hwrite, Option.bind_some, if_pos hfull, send_of_le le_rfl, Option.bind_some,
    hheld] at h
  have hsent := sent_prefix_entries h
  simp only [List.append_assoc, List.prefix_append_right_inj] at hsent
  exact not_terminated_prefix hlast hsent

/-- The loop sends what the buffer holds and every text if and only if the batches fit. -/
lemma entries_eq_iff (hlen : s.buffer.length = LISTING_BUFFER_SIZE)
    (hoffset : s.offset < LISTING_LIMIT) (htexts : ∀ text ∈ texts, text.getLast? = some 10) :
    s.entries texts = some (s.sent ++ s.buffer.take s.offset ++ texts.flatten) ↔
      BatchesFit s.offset (texts.map List.length) := by
  have hlimit : LISTING_LIMIT ≤ LISTING_BUFFER_SIZE := by decide
  induction texts generalizing s with
  | nil =>
    simp only [entries, List.flatten_nil, List.append_nil, List.map_nil, BatchesFit, iff_true]
    by_cases hzero : s.offset = 0
    · simp [hzero]
    · rw [if_pos (by omega), send_of_le (by omega)]
      rfl
  | cons text texts ih =>
    have hrest : ∀ text ∈ texts, text.getLast? = some 10 := fun t ht => htexts t (by simp [ht])
    rw [List.map_cons, BatchesFit, List.flatten_cons]
    by_cases hfit : s.offset + text.length < LISTING_BUFFER_SIZE
    · -- the text fits, and the rest is the induction hypothesis for the new buffer
      obtain ⟨buffer, hwrite, hlen', hheld⟩ := snprintf_of_lt hlen hfit
      rw [entries, hwrite, Option.bind_some, and_iff_right hfit]
      by_cases hfull : s.offset + text.length ≥ LISTING_LIMIT
      · rw [if_pos hfull, if_pos hfull, send_of_le hfit.le, Option.bind_some, hheld]
        have hnext := ih (s := ⟨buffer, 0, s.sent ++ (s.buffer.take s.offset ++ text)⟩) hlen'
          (show 0 < LISTING_LIMIT by decide) hrest
        simpa using hnext
      · rw [if_neg hfull, if_neg hfull]
        have hnext := ih (s := ⟨buffer, s.offset + text.length, s.sent⟩) hlen'
          (Nat.lt_of_not_ge hfull) hrest
        simpa only [hheld, List.append_assoc] using hnext
    · rw [iff_false_right (fun hbatches => hfit hbatches.1)]
      rcases (not_lt.mp hfit).eq_or_lt with hfill | hover
      · exact entries_cons_of_eq hlen (htexts text (by simp)) hfill.symm
      · rw [entries_cons_of_gt (by omega) hover]
        intro h
        cases h

end Listing

lemma getLast?_queueEntry {ctime : ℤ → Bytes} {i : ℕ} {job : PendingJob} :
    (queueEntry ctime i job).getLast? = some 10 :=
  List.getLast?_concat

lemma getLast?_queueEntries {ctime : ℤ → Bytes} {jobs : List PendingJob} :
    ∀ text ∈ queueEntries ctime jobs, text.getLast? = some 10 := by
  intro text htext
  obtain ⟨i, hi, rfl⟩ := List.mem_mapIdx.mp htext
  exact getLast?_queueEntry

lemma length_queueHeader : queueHeader.length = 18 := by decide +kernel

/-- The listing of a table that is not empty is complete if and only if its batches fit. -/
lemma showProcessingQueue_eq_iff {ctime : ℤ → Bytes} {stack : Vector UInt8 LISTING_BUFFER_SIZE}
    {jobs : List PendingJob} (hjobs : jobs ≠ []) :
    showProcessingQueue ctime stack jobs
        = some (queueHeader ++ (queueEntries ctime jobs).flatten) ↔
      BatchesFit queueHeader.length ((queueEntries ctime jobs).map List.length) := by
  have hlen : stack.toList.length = LISTING_BUFFER_SIZE := stack.length_toList
  have hheader : 0 + queueHeader.length < LISTING_LIMIT := by
    rw [length_queueHeader]
    decide
  obtain ⟨buffer, hwrite, hlen', hheld⟩ := Listing.snprintf_of_lt (s := ⟨stack.toList, 0, []⟩)
    hlen (hheader.trans (by decide))
  rw [showProcessingQueue, if_neg hjobs, hwrite, Option.bind_some]
  have hentries : Listing.entries ⟨buffer, 0 + queueHeader.length, []⟩ (queueEntries ctime jobs)
      = some ([] ++ buffer.take (0 + queueHeader.length) ++ (queueEntries ctime jobs).flatten) ↔
      BatchesFit (0 + queueHeader.length) ((queueEntries ctime jobs).map List.length) :=
    Listing.entries_eq_iff hlen' hheader getLast?_queueEntries
  rw [hheld, List.take_zero, List.nil_append, List.nil_append, Nat.zero_add] at hentries
  rwa [Nat.zero_add]

lemma showProcessingQueue_nil {ctime : ℤ → Bytes} {stack : Vector UInt8 LISTING_BUFFER_SIZE} :
    showProcessingQueue ctime stack [] = none := by
  rw [showProcessingQueue, if_pos rfl]
  decide +kernel

/-- The margin is sufficient for entries of at most 256 bytes. -/
lemma batchesFit_of_le {offset : ℕ} {lengths : List ℕ} (hoffset : offset < LISTING_LIMIT)
    (hshort : ∀ n ∈ lengths, n ≤ 256) : BatchesFit offset lengths := by
  have hlimit : LISTING_LIMIT + 256 = LISTING_BUFFER_SIZE := by decide
  induction lengths generalizing offset with
  | nil => trivial
  | cons n rest ih =>
    have hn : n ≤ 256 := hshort n (by simp)
    have hrest : ∀ n ∈ rest, n ≤ 256 := fun n hn => hshort n (by simp [hn])
    constructor
    · omega
    · apply ih _ hrest
      split
      · decide
      · omega

theorem showProcessingQueue_of_short {ctime : ℤ → Bytes}
    {stack : Vector UInt8 LISTING_BUFFER_SIZE} {jobs : List PendingJob} (hjobs : jobs ≠ [])
    (hshort : ∀ entry ∈ queueEntries ctime jobs, entry.length ≤ 256) :
    showProcessingQueue ctime stack jobs
      = some (queueHeader ++ (queueEntries ctime jobs).flatten) := by
  apply (showProcessingQueue_eq_iff hjobs).mpr
  apply batchesFit_of_le
  · rw [length_queueHeader]
    decide
  · intro n hn
    obtain ⟨entry, hentry, rfl⟩ := List.mem_map.mp hn
    exact hshort entry hentry

/-- `SHOW_QUEUE` stays in its buffer and sends the header and every entry in order if and only if
there is a job and the batches leave a byte of the buffer free. -/
theorem listing_complete_iff (ctime : ℤ → Bytes) (stack : Vector UInt8 LISTING_BUFFER_SIZE)
    (jobs : List PendingJob) :
    showProcessingQueue ctime stack jobs
        = some (queueHeader ++ (queueEntries ctime jobs).flatten) ↔
      jobs ≠ [] ∧
        BatchesFit queueHeader.length ((queueEntries ctime jobs).map List.length) := by
  by_cases hjobs : jobs = []
  · subst hjobs
    rw [showProcessingQueue_nil]
    constructor
    · intro h
      cases h
    · rintro ⟨hne, -⟩
      exact absurd rfl hne
  · rw [showProcessingQueue_eq_iff hjobs, and_iff_right hjobs]

/-- A job whose command has 1000 bytes. -/
def longJob : PendingJob where
  clientId := Vector.replicate 16 0
  clientAddr := ⟨2130706433, 40000⟩
  jobId := 0
  command := List.replicate 1000 120
  fileCount := 1
  filesReceived := 0
  lastUpdate := 0

/-- Three of these entries do not reach the limit, and with the fourth they exceed the buffer. -/
theorem not_listing_complete_four :
    ¬ ∀ (ctime : ℤ → Bytes) (stack : Vector UInt8 LISTING_BUFFER_SIZE) (jobs : List PendingJob),
      (∀ t, (ctime t).length = 24) → jobs ≠ [] →
      (∀ job ∈ jobs, job.command.length < MAX_CMD_LEN) →
      showProcessingQueue ctime stack jobs
        = some (queueHeader ++ (queueEntries ctime jobs).flatten) := by
  intro h
  have hcommand : ∀ job ∈ List.replicate 4 longJob, job.command.length < MAX_CMD_LEN := by
    intro job hjob
    rw [List.eq_of_mem_replicate hjob, longJob, List.length_replicate]
    decide
  have hfits := (showProcessingQueue_eq_iff (by simp)).mp
    (h (fun _ => cstr "Thu Jan  1 00:00:00 1970") (Vector.replicate _ 0)
      (List.replicate 4 longJob) (fun _ => rfl) (by simp) hcommand)
  exact absurd hfits (by decide +kernel)

end Pcd
