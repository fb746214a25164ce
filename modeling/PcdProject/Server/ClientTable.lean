import PcdProject.Core.OrderedMap
import PcdProject.Core.Slots
import PcdProject.Server.System

/-!
# The table of the clients

`clients` is an array of exactly `client_count` entries. A sweep moves the entries that stay to the
front while it reads the array, a kick closes the gap that it leaves, both give memory back, and a
heartbeat stops at the first match. `Represents` relates the array to the list of its entries, the
list to a map from ids to addresses and times in the order of registration.
-/

namespace Pcd

open Transition

/-- `clients` and `client_count`. -/
structure ClientTable where
  clients : Slots ClientInfo
  count : ℕ

namespace ClientTable

def init : ClientTable := ⟨[], 0⟩

/-- The case `CLIENT_ID_REQ`. -/
def register (t : ClientTable) (c : ClientInfo) : Option ClientTable := do
  let m ← (t.clients.realloc (t.count + 1)).store t.count c
  some ⟨m, t.count + 1⟩

/-- The loop of the case `HEARTBEAT` at index `i`, with `k` entries to go. -/
def heartbeatLoop (id : ClientId) (addr : SockAddr) (now : ℤ) :
    Slots ClientInfo → ℕ → ℕ → Option (Slots ClientInfo)
  | m, _, 0     => some m
  | m, i, k + 1 => do
    let c ← m.load i
    if c.clientId = id then m.store i { c with lastHeartbeat := now, addr := addr }
    else heartbeatLoop id addr now m (i + 1) k

/-- The case `HEARTBEAT`. -/
def heartbeat (t : ClientTable) (id : ClientId) (addr : SockAddr) (now : ℤ) :
    Option ClientTable := do
  let m ← heartbeatLoop id addr now t.clients 0 t.count
  some { t with clients := m }

/-- The loop of `cleanup_dead_clients` at index `i`, with `k` entries to go; returns `new_count`. -/
def cleanupLoop (timeout now : ℤ) :
    Slots ClientInfo → ℕ → ℕ → ℕ → Option (Slots ClientInfo × ℕ)
  | m, newCount, _, 0     => some (m, newCount)
  | m, newCount, i, k + 1 => do
    let c ← m.load i
    if now - c.lastHeartbeat < timeout then
      let m ← m.store newCount c
      cleanupLoop timeout now m (newCount + 1) (i + 1) k
    else cleanupLoop timeout now m newCount (i + 1) k

/-- `cleanup_dead_clients` -/
def cleanup (t : ClientTable) (timeout now : ℤ) : Option ClientTable := do
  let (m, newCount) ← cleanupLoop timeout now t.clients 0 0 t.count
  if newCount < t.count then some ⟨m.realloc newCount, newCount⟩ else some { t with clients := m }

/-- The loop of `kick_client_by_id` at index `i`, with `k` entries to go. -/
def kickLoop (id : ClientId) (t : ClientTable) : ℕ → ℕ → Option ClientTable
  | _, 0     => some t
  | i, k + 1 => do
    let c ← t.clients.load i
    if c.clientId = id then
      let m ← t.clients.closeGap i (t.count - i - 1)
      some ⟨m.realloc (t.count - 1), t.count - 1⟩
    else kickLoop id t (i + 1) k

/-- `kick_client_by_id` -/
def kick (t : ClientTable) (id : ClientId) : Option ClientTable := kickLoop id t 0 t.count

/-- The cells of the array are the entries `cs`. -/
structure Represents (t : ClientTable) (cs : List ClientInfo) : Prop where
  clients_eq : t.clients = cs.map some
  count_eq : t.count = cs.length

/-! ### The loops -/

variable {t : ClientTable} {cs : List ClientInfo} {id : ClientId} {addr : SockAddr}
  {timeout now : ℤ}

lemma represents_init : Represents init [] := ⟨rfl, rfl⟩

lemma Represents.register (h : Represents t cs) (c : ClientInfo) :
    ∃ t', t.register c = some t' ∧ Represents t' (cs ++ [c]) := by
  have hroom : t.clients.realloc (t.count + 1) = cs.map some ++ none :: [] := by
    rw [h.clients_eq, h.count_eq, Slots.realloc, List.take_of_length_le (by simp)]
    simp
  have hstore : (t.clients.realloc (t.count + 1)).store t.count c
      = some (cs.map some ++ some c :: []) := by
    rw [hroom, h.count_eq]
    exact Slots.store_append cs c none []
  refine ⟨⟨cs.map some ++ some c :: [], t.count + 1⟩, ?_, ?_⟩
  · rw [ClientTable.register, hstore]
    rfl
  · exact ⟨by simp, by simp [h.count_eq]⟩

/-- The entries in front of index `i` are `pre`. -/
lemma heartbeatLoop_spec (id : ClientId) (addr : SockAddr) (now : ℤ) (pre cs : List ClientInfo) :
    heartbeatLoop id addr now ((pre ++ cs).map some) pre.length cs.length =
      some ((pre ++ updateHeartbeat cs id addr now).map some) := by
  induction cs generalizing pre with
  | nil => rfl
  | cons c cs ih =>
    have hload : Slots.load ((pre ++ c :: cs).map some) pre.length = some c := by
      rw [List.map_append]
      exact Slots.load_append pre _
    rw [List.length_cons, heartbeatLoop, hload, updateHeartbeat_cons]
    simp only [Option.bind_eq_bind, Option.bind_some]
    split_ifs with hid
    · rw [List.map_append, List.map_cons, Slots.store_append, List.map_append, List.map_cons]
    · have hnext := ih (pre ++ [c])
      simpa using hnext

lemma Represents.heartbeat (h : Represents t cs) (id : ClientId) (addr : SockAddr) (now : ℤ) :
    ∃ t', t.heartbeat id addr now = some t' ∧
      Represents t' (updateHeartbeat cs id addr now) := by
  have hloop := heartbeatLoop_spec id addr now [] cs
  rw [List.nil_append, ← h.clients_eq, List.length_nil, ← h.count_eq] at hloop
  refine ⟨{ t with clients := (updateHeartbeat cs id addr now).map some }, ?_, rfl, ?_⟩
  · rw [ClientTable.heartbeat, hloop]
    rfl
  · rw [updateHeartbeat, List.length_lookmap]
    exact h.count_eq

/-- The entries that stay lie in front, the entries to go behind a gap of cells that were read. -/
lemma cleanupLoop_spec (timeout now : ℤ) (kept : List ClientInfo) (gap : Slots ClientInfo)
    (cs : List ClientInfo) :
    ∃ gap', cleanupLoop timeout now (kept.map some ++ gap ++ cs.map some) kept.length
        (kept.length + gap.length) cs.length =
      some ((kept ++ cleanupDeadClients timeout now cs).map some ++ gap',
        (kept ++ cleanupDeadClients timeout now cs).length) ∧
      (kept ++ cleanupDeadClients timeout now cs).length + gap'.length
        = kept.length + gap.length + cs.length := by
  induction cs generalizing kept gap with
  | nil => exact ⟨gap, by simp [cleanupLoop, cleanupDeadClients], by simp [cleanupDeadClients]⟩
  | cons c cs ih =>
    have hload : Slots.load (kept.map some ++ gap ++ (c :: cs).map some)
        (kept.length + gap.length) = some c := by
      simp [Slots.load]
    rw [List.length_cons, cleanupLoop, hload]
    simp only [Option.bind_eq_bind, Option.bind_some]
    split_ifs with hyoung
    · have hfilter : cleanupDeadClients timeout now (c :: cs)
          = c :: cleanupDeadClients timeout now cs :=
        List.filter_cons_of_pos (decide_eq_true hyoung)
      -- the first cell of the gap is overwritten, and the cell of `c` joins the gap
      obtain ⟨cell, rest, hcells, hrest⟩ : ∃ cell rest,
          gap ++ some c :: cs.map some = cell :: (rest ++ cs.map some) ∧
            rest.length = gap.length := by
        cases gap with
        | nil => exact ⟨some c, [], rfl, rfl⟩
        | cons cell gap => exact ⟨cell, gap ++ [some c], by simp, by simp⟩
      have hstore : Slots.store (kept.map some ++ gap ++ (c :: cs).map some) kept.length c
          = some ((kept ++ [c]).map some ++ rest ++ cs.map some) := by
        rw [List.append_assoc, List.map_cons, hcells, Slots.store_append]
        simp
      obtain ⟨gap', hloop, hlen⟩ := ih (kept ++ [c]) rest
      rw [hstore, Option.bind_some, hfilter]
      simp only [List.length_append, List.length_singleton, hrest, List.append_assoc,
        List.singleton_append, Nat.add_right_comm _ 1] at hloop hlen ⊢
      refine ⟨gap', hloop, ?_⟩
      simp only [List.length_cons] at hlen ⊢
      omega
    · have hfilter : cleanupDeadClients timeout now (c :: cs)
          = cleanupDeadClients timeout now cs :=
        List.filter_cons_of_neg (by simpa using hyoung)
      obtain ⟨gap', hloop, hlen⟩ := ih kept (gap ++ [some c])
      simp only [List.length_append, List.length_singleton, List.append_assoc,
        List.singleton_append] at hloop hlen
      rw [hfilter]
      refine ⟨gap', by simpa [Nat.add_assoc] using hloop, ?_⟩
      simp only [List.length_append]
      omega

lemma Represents.cleanup (h : Represents t cs) (timeout now : ℤ) :
    ∃ t', t.cleanup timeout now = some t' ∧
      Represents t' (cleanupDeadClients timeout now cs) := by
  obtain ⟨gap, hloop, hlen⟩ := cleanupLoop_spec timeout now [] [] cs
  simp only [List.map_nil, List.nil_append, List.length_nil, Nat.add_zero, Nat.zero_add]
    at hloop hlen
  rw [← h.clients_eq, ← h.count_eq] at hloop
  rw [← h.count_eq] at hlen
  simp only [ClientTable.cleanup, hloop, Option.bind_eq_bind, Option.bind_some]
  split_ifs with hless
  · refine ⟨_, rfl, ?_, rfl⟩
    show Slots.realloc _ _ = _
    rw [Slots.realloc, List.take_left' (by simp)]
    simp
  · have hgap : gap = [] := List.eq_nil_of_length_eq_zero (by omega)
    subst hgap
    rw [List.length_nil, Nat.add_zero] at hlen
    exact ⟨_, rfl, by simp, hlen.symm⟩

/-- The entries in front of index `i` are `pre`. -/
lemma kickLoop_spec (id : ClientId) (pre cs : List ClientInfo)
    (hpre : ∀ c ∈ pre, c.clientId ≠ id) (h : Represents t (pre ++ cs)) :
    ∃ t', kickLoop id t pre.length cs.length = some t' ∧
      Represents t' (pre ++ kickClientById id cs) := by
  induction cs generalizing pre with
  | nil => exact ⟨t, rfl, h⟩
  | cons c cs ih =>
    have hload : t.clients.load pre.length = some c := by
      rw [h.clients_eq, List.map_append]
      exact Slots.load_append pre _
    rw [List.length_cons, kickLoop, hload]
    simp only [Option.bind_eq_bind, Option.bind_some]
    split_ifs with hid
    · have hcount : t.count = pre.length + cs.length + 1 := by
        rw [h.count_eq, List.length_append, List.length_cons, Nat.add_assoc]
      have hgap := Slots.closeGap_append pre cs (some c)
      rw [← List.map_cons, ← List.map_append, ← h.clients_eq] at hgap
      have hrest : t.count - pre.length - 1 = cs.length := by omega
      have herase : kickClientById id (c :: cs) = cs := by
        rw [kickClientById, List.eraseP_cons_of_pos (by simpa using hid)]
      rw [hrest, hgap, Option.bind_some, herase]
      refine ⟨_, rfl, ?_, ?_⟩
      · have hlen : t.count - 1 = (pre.map some ++ cs.map (some : ClientInfo → _)).length := by
          simp [hcount]
        show Slots.realloc _ _ = _
        rw [hlen, Slots.realloc, ← List.append_assoc, List.take_left' rfl]
        simp
      · simp [hcount]
    · have herase : kickClientById id (c :: cs) = c :: kickClientById id cs := by
        rw [kickClientById, List.eraseP_cons_of_neg (by simpa using hid)]
        rfl
      have hpre' : ∀ x ∈ pre ++ [c], x.clientId ≠ id :=
        List.forall_mem_append.mpr ⟨hpre, List.forall_mem_singleton.mpr hid⟩
      have hnext := ih (pre ++ [c]) hpre' (by simpa using h)
      rw [herase]
      simpa using hnext

lemma Represents.kick (h : Represents t cs) (id : ClientId) :
    ∃ t', t.kick id = some t' ∧ Represents t' (kickClientById id cs) := by
  rw [ClientTable.kick, h.count_eq]
  exact kickLoop_spec id [] cs (by simp) h

end ClientTable

/-! ### Sequences of operations -/

/-- The operations on the table, with what they draw, receive or read from the clock. -/
inductive TableOp where
  | register (id : ClientId) (addr : SockAddr) (now : ℤ)
  | heartbeat (id : ClientId) (addr : SockAddr) (now : ℤ)
  | cleanup (timeout now : ℤ)
  | kick (id : ClientId)
  deriving DecidableEq

namespace TableOp

/-- The id that `generate_client_id` produced. -/
def newId : TableOp → Option ClientId
  | .register id _ _ => some id
  | _                => none

def step (t : ClientTable) : TableOp → Option ClientTable
  | .register id addr now  => t.register ⟨id, addr, now⟩
  | .heartbeat id addr now => t.heartbeat id addr now
  | .cleanup timeout now   => t.cleanup timeout now
  | .kick id               => t.kick id

/-- The operations on the list of the entries. -/
def apply (cs : List ClientInfo) : TableOp → List ClientInfo
  | .register id addr now  => registerClient cs id addr now
  | .heartbeat id addr now => updateHeartbeat cs id addr now
  | .cleanup timeout now   => cleanupDeadClients timeout now cs
  | .kick id               => kickClientById id cs

/-- What the table is for: the registered ids with address and time, in the order of
registration. -/
def applyMap (m : OrderedMap ClientId (SockAddr × ℤ)) :
    TableOp → OrderedMap ClientId (SockAddr × ℤ)
  | .register id addr now  => m.append id (addr, now)
  | .heartbeat id addr now => m.update id (addr, now)
  | .cleanup timeout now   => m.filter fun v => now - v.2 < timeout
  | .kick id               => m.erase id

end TableOp

/-- The entry of a client in the map. -/
def ClientInfo.entry (c : ClientInfo) : ClientId × SockAddr × ℤ :=
  (c.clientId, c.addr, c.lastHeartbeat)

/-- The ids in `clients[0..client_count)`. -/
def ClientTable.ids (t : ClientTable) : List ClientId :=
  ((t.clients.take t.count).reduceOption).map ClientInfo.clientId

/-- If the operation registers a client, its id is not in the table. -/
def ClientTable.Fresh (t : ClientTable) (op : TableOp) : Prop := ∀ id ∈ t.ids, op.newId ≠ some id

instance (t : ClientTable) (op : TableOp) : Decidable (t.Fresh op) := List.decidableBAll _ _

section Operations

variable {t : ClientTable} {cs : List ClientInfo} {m : OrderedMap ClientId (SockAddr × ℤ)}

lemma ClientTable.Represents.ids_eq (h : t.Represents cs) : t.ids = cs.map ClientInfo.clientId := by
  have htake : t.clients.take t.count = cs.map some := by
    rw [h.clients_eq, h.count_eq, List.take_of_length_le (by simp)]
  have hcells : (cs.map some).reduceOption = cs := by
    change (cs.map some).filterMap id = cs
    rw [List.filterMap_map, Function.id_comp, List.filterMap_some]
  rw [ClientTable.ids, htake, hcells]

/-- An operation on the array is the operation on the list of its entries. -/
lemma ClientTable.Represents.step (h : t.Represents cs) (op : TableOp) :
    ∃ t', TableOp.step t op = some t' ∧ t'.Represents (op.apply cs) := by
  cases op with
  | register id addr now => exact h.register ⟨id, addr, now⟩
  | heartbeat id addr now => exact h.heartbeat id addr now
  | cleanup timeout now => exact h.cleanup timeout now
  | kick id => exact h.kick id

lemma map_entry_lookmap (cs : List ClientInfo) (id : ClientId) (addr : SockAddr) (now : ℤ) :
    (updateHeartbeat cs id addr now).map ClientInfo.entry
      = (cs.map ClientInfo.entry).lookmap
          fun e => if e.1 = id then some (id, addr, now) else none := by
  induction cs with
  | nil => rfl
  | cons c cs ih =>
    rw [updateHeartbeat_cons, List.map_cons, List.lookmap_cons]
    by_cases hid : c.clientId = id
    · simp [ClientInfo.entry, hid]
    · simp [ClientInfo.entry, hid, ← ih]

/-- With distinct ids an operation on the list is the operation on the map. -/
lemma map_entry_apply (h : cs.map ClientInfo.entry = m.entries) (op : TableOp)
    (hfresh : ∀ id ∈ cs.map ClientInfo.clientId, op.newId ≠ some id) :
    (op.apply cs).map ClientInfo.entry = (op.applyMap m).entries := by
  have hkeys : m.keys = cs.map ClientInfo.clientId := by
    rw [OrderedMap.keys, ← h, List.map_map]
    rfl
  cases op with
  | register id addr now =>
    have hid : id ∉ m.keys := by
      rw [hkeys]
      exact fun hmem => hfresh id hmem rfl
    rw [TableOp.applyMap, OrderedMap.entries_append hid, ← h, TableOp.apply, registerClient,
      List.map_append]
    rfl
  | heartbeat id addr now =>
    rw [TableOp.applyMap, OrderedMap.entries_update, ← h]
    exact map_entry_lookmap cs id addr now
  | cleanup timeout now =>
    show (cs.filter _).map _ = m.entries.filter _
    rw [← h, List.filter_map]
    rfl
  | kick id =>
    rw [TableOp.applyMap, OrderedMap.entries_erase, ← h, List.eraseP_map]
    rfl

end Operations

/-- The array never faults. -/
lemma ClientTable.run_represents (ops : List TableOp) :
    ∃ t, run TableOp.step .init ops = some t ∧ t.Represents (ops.foldl TableOp.apply []) := by
  induction ops using List.reverseRecOn with
  | nil => exact ⟨.init, rfl, ClientTable.represents_init⟩
  | append_singleton ops op ih =>
    obtain ⟨t, hrun, ht⟩ := ih
    obtain ⟨t', hstep, ht'⟩ := ht.step op
    rw [List.foldl_concat]
    exact ⟨t', run_concat_eq_some.mpr ⟨t, hrun, hstep⟩, ht'⟩

/-- If each id that is produced is new, the entries are those of the map. -/
lemma map_entry_foldl {ops : List TableOp}
    (hfresh : Along TableOp.step ClientTable.Fresh .init ops) :
    (ops.foldl TableOp.apply []).map ClientInfo.entry
      = (ops.foldl TableOp.applyMap .empty).entries := by
  induction ops using List.reverseRecOn with
  | nil => rfl
  | append_singleton ops op ih =>
    obtain ⟨hops, hop⟩ := along_concat.mp hfresh
    obtain ⟨t, hrun, ht⟩ := ClientTable.run_represents ops
    rw [List.foldl_concat, List.foldl_concat]
    apply map_entry_apply (ih hops)
    rw [← ht.ids_eq]
    exact hop t hrun

/-- The table refines the map: if each id that is produced is new, then after every sequence of
operations the ids in the table are distinct, and its entries are those of the map. -/
theorem clientTable_refines (ops : List TableOp)
    (hfresh : Along TableOp.step ClientTable.Fresh .init ops) :
    ∃ t cs, run TableOp.step .init ops = some t ∧ t.Represents cs ∧ t.ids.Nodup ∧
      cs.map ClientInfo.entry = (ops.foldl TableOp.applyMap .empty).entries := by
  obtain ⟨t, hrun, ht⟩ := ClientTable.run_represents ops
  have hmap := map_entry_foldl hfresh
  refine ⟨t, _, hrun, ht, ?_, hmap⟩
  have hnodup := (ops.foldl TableOp.applyMap .empty).nodup
  rw [← hmap, List.map_map] at hnodup
  rw [ht.ids_eq]
  exact hnodup

/-- Two clients register, the first is refreshed, the second is swept away, the first is kicked. -/
theorem clientTable_refines_twoClients :
    let ops : List TableOp := [.register (Vector.replicate 16 1) ⟨1, 1⟩ 0,
      .register (Vector.replicate 16 2) ⟨2, 2⟩ 5, .heartbeat (Vector.replicate 16 1) ⟨1, 3⟩ 20,
      .cleanup 30 40, .kick (Vector.replicate 16 1)]
    ∃ t cs, run TableOp.step .init ops = some t ∧ t.Represents cs ∧ t.ids.Nodup ∧
      cs.map ClientInfo.entry = (ops.foldl TableOp.applyMap .empty).entries :=
  clientTable_refines _ (by decide +kernel)

/-! ### The table in the server -/

/-- The operations on the table in a step of the server. -/
def Action.tableOps : Action → List TableOp
  | .client (.receive buffer n src now newId) =>
    match readRequest buffer n with
    | some (.clientId _)   => [.register newId src now]
    | some (.heartbeat id) => [.heartbeat id src now]
    | _                    => []
  | .sweep now => [.cleanup HEARTBEAT_TIMEOUT now]
  | .kick id   => [.kick id]
  | _          => []

/-- The operations on the table in a run. -/
def tableOpsOfRun (dir : Bytes) (as : List Action) : List TableOp :=
  trace Server.step (fun _ a => a.tableOps) (.init dir) as

lemma clients_of_step {s t : Server} {a : Action} (h : s.step a = some t) :
    t.clients = a.tableOps.foldl TableOp.apply s.clients := by
  cases SystemRule.of_step h with
  | client a =>
    cases DatagramRule.of_clientStep h with
    | receive buffer n src now newId =>
      rw [Action.tableOps]
      cases readRequest buffer n with
      | none => rfl
      | some req => cases req <;> rfl
    | goOn a t ha hclients =>
      rw [hclients]
      cases a with
      | receive => cases ha
      | _ => rfl
  | worker w a _ h => cases h <;> rfl
  | processing a _ h => cases h <;> rfl
  | download a _ h => cases h <;> rfl
  | sweep | kick | limit | limitIgnored | connectUpload | connectDownload => rfl

/-- In every run the list that the threads work on is what the array holds. -/
theorem clients_represented {dir : Bytes} {as : List Action} {s : Server}
    (h : run Server.step (.init dir) as = some s) :
    ∃ t, run TableOp.step .init (tableOpsOfRun dir as) = some t ∧ t.Represents s.clients := by
  have hclients : s.clients = (tableOpsOfRun dir as).foldl TableOp.apply [] := by
    refine along_trace_invariant (C := fun _ _ => True)
      (I := fun s ops => s.clients = ops.foldl TableOp.apply []) rfl ?_
      (fun _ _ _ _ _ => trivial) h
    intro s a t ops hs _ hstep
    rw [clients_of_step hstep, hs, List.foldl_append]
  rw [hclients]
  exact ClientTable.run_represents _

end Pcd
