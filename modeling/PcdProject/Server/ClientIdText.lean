import PcdProject.Core.CText
import PcdProject.Core.CBuffer
import PcdProject.Protocol.Requests
import PcdProject.Server.State

/-!
# Client ids as text

The administrator sees a client id as 32 hexadecimal digits and types it back. `formatClientIdHex`
writes the digits pair by pair into a buffer, each `snprintf` over the terminator of the one before;
`parseClientId` reads them pair by pair and stops at the first character that is no digit, with the
bytes before it written.
-/

namespace Pcd

open CText

/-! ### The loops -/

/-- `snprintf(out + pos, size, "%s", text)` -/
def snprintf (out : Bytes) (pos size : ℕ) (text : Bytes) : Bytes :=
  if size = 0 then out
  else
    let written := text.take (size - 1) ++ [0]
    out.take pos ++ written ++ out.drop (pos + written.length)

/-- The loop of `format_client_id_hex` from index `i` on, `out_size` being the size of `out`. -/
def formatLoop (out : Bytes) (i : ℕ) : Bytes → Bytes
  | []      => out
  | b :: bs => formatLoop (snprintf out (i * 2) (out.length - i * 2) (hex02 b)) (i + 1) bs

/-- The buffer after `format_client_id_hex`. -/
def formatClientIdHex (id : ClientId) (out : Vector UInt8 33) : Bytes :=
  formatLoop out.toList 0 id.toList

def hexcharToInt (c : UInt8) : ℤ :=
  if 48 ≤ c ∧ c ≤ 57 then c.toNat - 48
  else if 97 ≤ c ∧ c ≤ 102 then 10 + (c.toNat - 97)
  else if 65 ≤ c ∧ c ≤ 70 then 10 + (c.toNat - 65)
  else -1

/-- `(hi << 4) | lo` -/
def nibbles (hi lo : ℤ) : UInt8 := UInt8.ofNat (hi.toNat <<< 4 ||| lo.toNat)

/-- The loop of `parse_client_id` from index `i` on, two characters of the string at a time. -/
def parseLoop (outId : ClientId) (i : ℕ) : Bytes → ClientId × ℤ
  | hi :: lo :: rest =>
    if hexcharToInt hi < 0 ∨ hexcharToInt lo < 0 then (outId, -1)
    else parseLoop (outId.setIfInBounds i (nibbles (hexcharToInt hi) (hexcharToInt lo))) (i + 1) rest
  | _ => (outId, 0)

/-- `out_id` afterwards and the value returned. -/
def parseClientId (hexStr : Bytes) (outId : ClientId) : ClientId × ℤ :=
  if hexStr.length ≠ 32 then (outId, -1) else parseLoop outId 0 hexStr

/-! ### Hexadecimal digits -/

/-- `0` to `9`, `a` to `f` and `A` to `F`. -/
def isHexDigit (c : UInt8) : Bool := 48 ≤ c ∧ c ≤ 57 ∨ 97 ≤ c ∧ c ≤ 102 ∨ 65 ≤ c ∧ c ≤ 70

/-- 32 hexadecimal digits. -/
def IsClientIdText (s : Bytes) : Prop := s.length = 32 ∧ ∀ c ∈ s, isHexDigit c

instance (s : Bytes) : Decidable (IsClientIdText s) :=
  have := List.decidableBAll (fun c => isHexDigit c = true) s
  inferInstanceAs (Decidable (_ ∧ _))

/-- The bytes of the pairs of digits up to the first pair that is none. -/
def leadingBytes : Bytes → Bytes
  | hi :: lo :: rest =>
    if isHexDigit hi ∧ isHexDigit lo then
      nibbles (hexcharToInt hi) (hexcharToInt lo) :: leadingBytes rest
    else []
  | _ => []

/-- The first bytes of an id replaced. -/
def ClientId.overlay (outId : ClientId) (bs : Bytes) : ClientId :=
  ClientId.ofBytes (bs ++ outId.toList.drop bs.length)

variable {c hi lo : UInt8} {s : Bytes} {id outId : ClientId}

lemma hexcharToInt_of_not (h : ¬ isHexDigit c) : hexcharToInt c = -1 := by
  simp only [isHexDigit, decide_eq_true_eq, not_or] at h
  obtain ⟨hdigit, hlower, hupper⟩ := h
  rw [hexcharToInt, if_neg hdigit, if_neg hlower, if_neg hupper]

lemma ofNat_toNat_eq {n : ℕ} (h : n = c.toNat) : UInt8.ofNat n = c := by
  rw [h, UInt8.ofNat_toNat]

/-- The digit is read as the number that prints it, in lower case. -/
lemma exists_hexcharToInt (h : isHexDigit c) :
    ∃ n : ℕ, n < 16 ∧ hexcharToInt c = n ∧ hexDigit n = tolower c := by
  simp only [isHexDigit, decide_eq_true_eq, UInt8.le_iff_toNat_le] at h
  simp only [hexcharToInt, tolower, hexDigit, UInt8.le_iff_toNat_le]
  have h48 : (48 : UInt8).toNat = 48 := rfl
  have h57 : (57 : UInt8).toNat = 57 := rfl
  have h65 : (65 : UInt8).toNat = 65 := rfl
  have h70 : (70 : UInt8).toNat = 70 := rfl
  have h90 : (90 : UInt8).toNat = 90 := rfl
  have h97 : (97 : UInt8).toNat = 97 := rfl
  have h102 : (102 : UInt8).toNat = 102 := rfl
  simp only [h48, h57, h65, h70, h90, h97, h102] at h ⊢
  rcases h with hdigit | hlower | hupper
  · refine ⟨c.toNat - 48, by omega, ?_, ?_⟩
    · rw [if_pos hdigit]
      omega
    · rw [if_pos (by omega), if_neg (by omega)]
      exact ofNat_toNat_eq (by omega)
  · refine ⟨c.toNat - 87, by omega, ?_, ?_⟩
    · rw [if_neg (by omega), if_pos hlower]
      omega
    · rw [if_neg (by omega), if_neg (by omega)]
      exact ofNat_toNat_eq (by omega)
  · refine ⟨c.toNat - 55, by omega, ?_, ?_⟩
    · rw [if_neg (by omega), if_neg (by omega), if_pos hupper]
      omega
    · rw [if_neg (by omega), if_pos (by omega)]
      have hsum : (c + 32).toNat = c.toNat + 32 := by
        rw [UInt8.toNat_add]
        exact Nat.mod_eq_of_lt (by change c.toNat + 32 < 256; omega)
      exact ofNat_toNat_eq (by omega)

lemma hexcharToInt_neg_iff : hexcharToInt c < 0 ↔ ¬ isHexDigit c := by
  constructor
  · intro hneg h
    obtain ⟨n, -, hn, -⟩ := exists_hexcharToInt h
    omega
  · intro h
    rw [hexcharToInt_of_not h]
    decide

/-- Two digits print the byte that they are read as. -/
lemma hex02_nibbles (hhi : isHexDigit hi) (hlo : isHexDigit lo) :
    hex02 (nibbles (hexcharToInt hi) (hexcharToInt lo)) = [tolower hi, tolower lo] := by
  obtain ⟨m, hm, hmhi, hhi⟩ := exists_hexcharToInt hhi
  obtain ⟨n, hn, hnlo, hlo⟩ := exists_hexcharToInt hlo
  have hbyte : (nibbles (hexcharToInt hi) (hexcharToInt lo)).toNat = m * 16 + n := by
    rw [nibbles, hmhi, hnlo, Int.toNat_natCast, Int.toNat_natCast,
      ← Nat.shiftLeft_add_eq_or_of_lt (i := 4) hn, Nat.shiftLeft_eq]
    exact UInt8.toNat_ofNat_of_lt (by change m * 16 + n < 256; omega)
  have hhigh : (m * 16 + n) / 16 = m := by omega
  have hlow : (m * 16 + n) % 16 = n := by omega
  rw [hex02, hbyte, hhigh, hlow, hhi, hlo]

lemma isHexDigit_hexDigit : ∀ n : Fin 16, isHexDigit (hexDigit n) ∧
    hexcharToInt (hexDigit n) = (n : ℕ) ∧ hexDigit n ≠ 0 := by decide

/-- The digits of a byte are read as the byte. -/
lemma leadingBytes_hex02 (b : UInt8) (s : Bytes) :
    leadingBytes (hex02 b ++ s) = b :: leadingBytes s := by
  have hb := b.toNat_lt
  obtain ⟨hhi, hhigh, -⟩ := isHexDigit_hexDigit ⟨b.toNat / 16, by omega⟩
  obtain ⟨hlo, hlow, -⟩ := isHexDigit_hexDigit ⟨b.toNat % 16, Nat.mod_lt _ (by decide)⟩
  have hbyte : nibbles (hexcharToInt (hexDigit (b.toNat / 16)))
      (hexcharToInt (hexDigit (b.toNat % 16))) = b := by
    rw [nibbles, hhigh, hlow, Int.toNat_natCast, Int.toNat_natCast,
      ← Nat.shiftLeft_add_eq_or_of_lt (i := 4) (Nat.mod_lt _ (by decide)), Nat.shiftLeft_eq]
    exact ofNat_toNat_eq (Nat.div_add_mod' _ _)
  change leadingBytes (hexDigit (b.toNat / 16) :: hexDigit (b.toNat % 16) :: s) = _
  rw [leadingBytes, if_pos ⟨hhi, hlo⟩, hbyte]

/-- The digits of the bytes. -/
def hexText (bs : Bytes) : Bytes := (bs.map hex02).flatten

lemma hexText_cons (b : UInt8) (bs : Bytes) : hexText (b :: bs) = hex02 b ++ hexText bs := rfl

lemma length_hexText (bs : Bytes) : (hexText bs).length = 2 * bs.length := by
  induction bs with
  | nil => rfl
  | cons b bs ih =>
    rw [hexText_cons, List.length_append, ih, List.length_cons]
    change 2 + _ = _
    omega

lemma isHexDigit_of_mem_hexText {bs : Bytes} (h : c ∈ hexText bs) : isHexDigit c ∧ c ≠ 0 := by
  obtain ⟨pair, hpair, hc⟩ := List.mem_flatten.mp h
  obtain ⟨b, -, rfl⟩ := List.mem_map.mp hpair
  have hb := b.toNat_lt
  rcases List.mem_pair.mp hc with rfl | rfl
  · have hdigit := isHexDigit_hexDigit ⟨b.toNat / 16, by omega⟩
    exact ⟨hdigit.1, hdigit.2.2⟩
  · have hdigit := isHexDigit_hexDigit ⟨b.toNat % 16, Nat.mod_lt _ (by decide)⟩
    exact ⟨hdigit.1, hdigit.2.2⟩

lemma leadingBytes_hexText (bs : Bytes) : leadingBytes (hexText bs) = bs := by
  induction bs with
  | nil => rfl
  | cons b bs ih => rw [hexText_cons, leadingBytes_hex02, ih]

/-- Digits are printed in lower case by the bytes that they are read as. -/
lemma hexText_leadingBytes {k : ℕ} (hlen : s.length = 2 * k) (hs : ∀ c ∈ s, isHexDigit c) :
    hexText (leadingBytes s) = s.map tolower ∧ (leadingBytes s).length = k := by
  induction k generalizing s with
  | zero =>
    have hnil : s = [] := List.eq_nil_of_length_eq_zero hlen
    subst hnil
    exact ⟨rfl, rfl⟩
  | succ k ih =>
    match s, hlen with
    | hi :: lo :: rest, hlen =>
      have hhi := hs hi (by simp)
      have hlo := hs lo (by simp)
      have hrest : rest.length = 2 * k := by
        simp only [List.length_cons] at hlen
        omega
      obtain ⟨htext, hlength⟩ := ih hrest fun c hc => hs c (by simp [hc])
      rw [leadingBytes, if_pos ⟨hhi, hlo⟩, hexText_cons, hex02_nibbles hhi hlo, htext,
        List.length_cons, hlength]
      exact ⟨rfl, rfl⟩

/-! ### Reading -/

lemma ClientId.overlay_nil (outId : ClientId) : outId.overlay [] = outId :=
  ClientId.ofBytes_toList outId

/-- All of the id is replaced by 16 bytes. -/
lemma ClientId.overlay_of_length {bs : Bytes} (hlen : bs.length = 16) (outId : ClientId) :
    outId.overlay bs = ClientId.ofBytes bs := by
  have hdrop : outId.toList.drop bs.length = [] := by
    apply List.drop_eq_nil_of_le
    rw [Vector.length_toList, hlen]
  rw [ClientId.overlay, hdrop, List.append_nil]

lemma ClientId.toList_ofBytes {bs : Bytes} (hlen : bs.length = 16) :
    (ClientId.ofBytes bs).toList = bs := by
  apply List.ext_getElem
  · rw [Vector.length_toList, hlen]
  · intro i _ hi
    simp [ClientId.ofBytes, hi]

lemma ClientId.overlay_concat (bs : Bytes) (outId : ClientId) (b : UInt8) :
    (outId.overlay bs).setIfInBounds bs.length b = outId.overlay (bs ++ [b]) := by
  ext i hi
  rw [Vector.getElem_setIfInBounds hi]
  simp only [ClientId.overlay, ClientId.ofBytes, Vector.getElem_ofFn, List.getD_eq_getElem?_getD]
  split_ifs with heq
  · subst heq
    simp
  · rcases Nat.lt_or_ge i bs.length with hlt | hge
    · rw [List.append_assoc, List.getElem?_append_left hlt, List.getElem?_append_left hlt]
    · rw [List.getElem?_append_right hge, List.getElem?_append_right (by simp; omega)]
      have hindex : bs.length + (i - bs.length) = bs.length + 1 + (i - (bs.length + 1)) := by omega
      simp only [List.getElem?_drop, List.length_append, List.length_singleton, hindex]

/-- The loop writes the leading bytes and reports whether there were no others. -/
lemma parseLoop_overlay {k : ℕ} (hlen : s.length = 2 * k) (bs : Bytes)
    (hsize : bs.length + k ≤ 16) :
    parseLoop (outId.overlay bs) bs.length s =
      (outId.overlay (bs ++ leadingBytes s), if s.all isHexDigit then 0 else -1) := by
  induction k generalizing s bs with
  | zero =>
    have hnil : s = [] := List.eq_nil_of_length_eq_zero hlen
    subst hnil
    simp [parseLoop, leadingBytes]
  | succ k ih =>
    match s, hlen with
    | hi :: lo :: rest, hlen =>
      have hrest : rest.length = 2 * k := by
        simp only [List.length_cons] at hlen
        omega
      rw [parseLoop, leadingBytes]
      simp only [hexcharToInt_neg_iff]
      by_cases hpair : isHexDigit hi ∧ isHexDigit lo
      · have hnext := ih hrest (bs ++ [nibbles (hexcharToInt hi) (hexcharToInt lo)])
          (by simp; omega)
        rw [List.length_append, List.length_singleton] at hnext
        rw [if_neg (by simp [hpair]), if_pos hpair, ClientId.overlay_concat, hnext]
        simp [hpair]
      · rw [if_pos (by simpa [imp_iff_not_or] using hpair), if_neg hpair, List.append_nil,
          if_neg]
        intro hall
        rw [List.all_eq_true] at hall
        exact hpair ⟨hall hi (by simp), hall lo (by simp)⟩

/-- What a string writes into the id, by its length and its leading digits. -/
def idBytes (s : Bytes) : Bytes := if s.length = 32 then leadingBytes s else []

lemma parseClientId_eq (s : Bytes) (outId : ClientId) :
    parseClientId s outId = (outId.overlay (idBytes s), if IsClientIdText s then 0 else -1) := by
  unfold parseClientId idBytes IsClientIdText
  by_cases hlen : s.length = 32
  · have hloop : parseLoop (outId.overlay []) 0 s
        = (outId.overlay (leadingBytes s), if s.all isHexDigit then 0 else -1) :=
      parseLoop_overlay (k := 16) hlen [] (Nat.le_refl 16)
    rw [ClientId.overlay_nil] at hloop
    rw [if_neg (not_not.mpr hlen), if_pos hlen]
    simpa [hlen] using hloop
  · simp [hlen, ClientId.overlay_nil]

/-! ### Printing -/

/-- Two digits and a terminator replace the first three bytes behind the text so far. -/
lemma snprintf_hex02 (ds tail : Bytes) (b : UInt8) (htail : 3 ≤ tail.length) :
    snprintf (hexText ds ++ tail) (ds.length * 2) tail.length (hex02 b)
      = hexText (ds ++ [b]) ++ 0 :: tail.drop 3 := by
  have hpos : (hexText ds).length = ds.length * 2 := by
    rw [length_hexText]
    omega
  have htake : (hex02 b).take (tail.length - 1) = hex02 b :=
    List.take_of_length_le (by change 2 ≤ _; omega)
  rw [snprintf, if_neg (by omega), htake, ← hpos, List.take_left]
  simp only [List.drop_length_add_append]
  simp [hexText, hex02]

/-- The loop writes the digits of all bytes, and a terminator behind the last ones. -/
lemma formatLoop_eq (ds bs tail : Bytes) (htail : tail.length = 2 * bs.length + 1) :
    formatLoop (hexText ds ++ tail) ds.length bs
      = hexText (ds ++ bs) ++ if bs = [] then tail else [0] := by
  induction bs generalizing ds tail with
  | nil => simp [formatLoop]
  | cons b bs ih =>
    rw [List.length_cons] at htail
    have hsize : (hexText ds ++ tail).length - ds.length * 2 = tail.length := by
      rw [List.length_append, length_hexText]
      omega
    have hrest : (0 :: tail.drop 3).length = 2 * bs.length + 1 := by
      rw [List.length_cons, List.length_drop]
      omega
    have hnext := ih (ds ++ [b]) (0 :: tail.drop 3) hrest
    rw [List.length_append, List.length_singleton] at hnext
    rw [formatLoop, hsize, snprintf_hex02 ds tail b (by omega), hnext, List.append_assoc,
      if_neg (List.cons_ne_nil b bs)]
    cases bs with
    | nil =>
      have hdrop : tail.drop 3 = [] := by
        apply List.drop_eq_nil_of_le
        rw [htail]
        exact Nat.le_refl 3
      rw [if_pos rfl, hdrop]
      rfl
    | cons c bs =>
      rw [if_neg (List.cons_ne_nil c bs)]
      rfl

/-- The string in the buffer is the 32 digits of the id, whatever the buffer was. -/
lemma string_formatClientIdHex (id : ClientId) (out : Vector UInt8 33) :
    (formatClientIdHex id out).takeWhile (· ≠ 0) = hexText id.toList := by
  have hloop := formatLoop_eq [] id.toList out.toList (by simp)
  have hid : id.toList ≠ [] := by
    intro hnil
    have hlen := id.length_toList
    rw [hnil] at hlen
    cases hlen
  rw [if_neg hid] at hloop
  change (formatLoop (hexText [] ++ out.toList) 0 id.toList).takeWhile _ = _
  rw [show (0 : ℕ) = ([] : Bytes).length from rfl, hloop, List.nil_append]
  have hdigits : ∀ b ∈ hexText id.toList, decide (b ≠ 0) = true :=
    fun b hb => decide_eq_true (isHexDigit_of_mem_hexText hb).2
  rw [List.takeWhile_append_of_pos hdigits]
  exact List.append_nil _

/-! ### Main result -/

/-- An id that is printed and typed back is read as itself; exactly the strings of 32 digits are
read, and each is printed back in lower case; and ids with one printed form are equal. -/
theorem clientId_text (stack : Vector UInt8 33) :
    (∀ id outId : ClientId,
      parseClientId ((formatClientIdHex id stack).takeWhile (· ≠ 0)) outId = (id, 0)) ∧
    (∀ (s : Bytes) (outId : ClientId), (parseClientId s outId).2 = 0 ↔
      s.length = 32 ∧ ∀ c ∈ s, isHexDigit c) ∧
    (∀ (s : Bytes) (outId : ClientId), (parseClientId s outId).2 = 0 →
      (formatClientIdHex (parseClientId s outId).1 stack).takeWhile (· ≠ 0) = s.map tolower) ∧
    (∀ (id id' : ClientId) (stack' : Vector UInt8 33),
      (formatClientIdHex id stack).takeWhile (· ≠ 0)
        = (formatClientIdHex id' stack').takeWhile (· ≠ 0) ↔ id = id') := by
  have hread : ∀ id outId : ClientId, parseClientId (hexText id.toList) outId = (id, 0) := by
    intro id outId
    have hlen : (hexText id.toList).length = 32 := by rw [length_hexText, Vector.length_toList]
    have htext : IsClientIdText (hexText id.toList) :=
      ⟨hlen, fun c hc => (isHexDigit_of_mem_hexText hc).1⟩
    rw [parseClientId_eq, idBytes, if_pos hlen, if_pos htext, leadingBytes_hexText,
      ClientId.overlay_of_length (Vector.length_toList), ClientId.ofBytes_toList]
  have haccept : ∀ (s : Bytes) (outId : ClientId),
      (parseClientId s outId).2 = 0 ↔ IsClientIdText s := by
    intro s outId
    rw [parseClientId_eq]
    split_ifs with htext <;> simp [htext]
  refine ⟨?_, haccept, ?_, ?_⟩
  · intro id outId
    rw [string_formatClientIdHex, hread]
  · intro s outId h
    obtain ⟨hlen, hdigits⟩ := (haccept s outId).mp h
    obtain ⟨htext, hlength⟩ := hexText_leadingBytes (k := 16) hlen hdigits
    rw [string_formatClientIdHex, parseClientId_eq, idBytes, if_pos hlen,
      ClientId.overlay_of_length hlength, ClientId.toList_ofBytes hlength, htext]
  · intro id id' stack'
    rw [string_formatClientIdHex, string_formatClientIdHex]
    constructor
    · intro heq
      have hid := hread id 0
      rw [heq, hread] at hid
      exact (congrArg Prod.fst hid).symm
    · rintro rfl
      rfl

end Pcd
