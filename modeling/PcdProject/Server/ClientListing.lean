import PcdProject.Server.AdminArguments

/-!
# Listing and kicking clients

What an administrator reads from the output of `SHOW_CLIENTS`, and what `KICK_CLIENT` does to it.
-/

namespace Pcd

open CText

/-- The id in a line of the listing, from its label to the tab. -/
def lineId (line : Bytes) : Option Bytes :=
  if cstr "  ID: " <+: line then some ((line.drop 6).takeWhile (· ≠ 9)) else none

/-- The lines of a listing that show an id. -/
def clientLines (text : Bytes) : List Bytes := (text.splitOn 10).filter fun l => (lineId l).isSome

/-- The ids in a listing, in the order of its lines. -/
def listedIds (text : Bytes) : List Bytes := (clientLines text).filterMap lineId

/-- The line of a client in the listing. -/
def clientLine (env : AdminEnv) (c : ClientInfo) : Bytes :=
  (clientEntry env c).takeWhile (· ≠ 10)

/-- The text of an id in the listing. -/
def ClientInfo.idText (c : ClientInfo) : Bytes := hexText c.clientId.toList

/-- The texts of `strftime` are of one line. -/
def AdminEnv.OneLine (env : AdminEnv) : Prop := ∀ time, 10 ∉ env.strftime time

variable {env : AdminEnv} {c : ClientInfo} {text : Bytes}

/-! ### Lines -/

lemma notMem_decimal (n : ℕ) : 10 ∉ decimal n := by
  intro h
  have hdigit := isdigit_of_mem_decimal h
  revert hdigit
  decide

lemma notMem_inetNtop (ip : UInt32) : 10 ∉ inetNtop ip := by
  simp [inetNtop, notMem_decimal, cstr]

lemma notMem_idText (c : ClientInfo) : 9 ∉ c.idText ∧ 10 ∉ c.idText := by
  have hdigit : ∀ b ∈ c.idText, isHexDigit b := fun b hb => (isHexDigit_of_mem_hexText hb).1
  constructor
  · intro h
    exact absurd (hdigit 9 h) (by decide)
  · intro h
    exact absurd (hdigit 10 h) (by decide)

lemma lineId_append (c : ClientInfo) (rest : Bytes) :
    lineId (cstr "  ID: " ++ c.idText ++ 9 :: rest) = some c.idText := by
  have hlabel : (cstr "  ID: ").length = 6 := by decide
  have hdigits : ∀ b ∈ c.idText, decide (b ≠ 9) = true := by
    intro b hb
    apply decide_eq_true
    rintro rfl
    exact (notMem_idText c).1 hb
  rw [lineId, List.append_assoc, if_pos (List.prefix_append _ _), List.drop_left' hlabel,
    List.takeWhile_append_of_pos hdigits]
  simp

/-- The line of a client begins with its id, and its end is a line of its own. -/
lemma clientEntry_eq (henv : env.OneLine) (c : ClientInfo) :
    clientEntry env c = clientLine env c ++ 10 :: 10 :: [] ∧ 10 ∉ clientLine env c ∧
      lineId (clientLine env c) = some c.idText := by
  obtain ⟨rest, hrest, hentry⟩ : ∃ rest, 10 ∉ rest ∧ clientEntry env c
      = (cstr "  ID: " ++ c.idText ++ 9 :: rest) ++ 10 :: 10 :: [] := by
    refine ⟨cstr "  IP: " ++ inetNtop c.addr.ip ++ cstr ":" ++ decimal (htons c.addr.port).toNat
      ++ cstr "\t  Last heartbeat: " ++ env.strftime c.lastHeartbeat, ?_, ?_⟩
    · simp [notMem_inetNtop, notMem_decimal, henv c.lastHeartbeat, cstr]
    · have htab : cstr "\t  IP: " = 9 :: cstr "  IP: " := by decide
      have hend : cstr "\n\n" = [10, 10] := by decide
      rw [clientEntry, string_formatClientIdHex, htab, hend]
      simp [ClientInfo.idText]
  have hnewline : 10 ∉ cstr "  ID: " ++ c.idText ++ 9 :: rest := by
    simp [notMem_idText c, hrest, cstr]
  have hline : clientLine env c = cstr "  ID: " ++ c.idText ++ 9 :: rest := by
    rw [clientLine, hentry, List.takeWhile_append_of_pos]
    · simp
    · intro b hb
      exact decide_eq_true (ne_of_mem_of_not_mem hb hnewline)
  rw [hline]
  exact ⟨hentry, hnewline, lineId_append c rest⟩

lemma clientLines_cons {line : Bytes} (hline : 10 ∉ line) (rest : Bytes) :
    clientLines (line ++ 10 :: rest)
      = (if (lineId line).isSome then [line] else []) ++ clientLines rest := by
  rw [clientLines, List.splitOn_append_cons_self, List.splitOn_eq_singleton hline,
    List.filter_append, clientLines]
  split_ifs with h <;> simp [h]

lemma clientLines_entries (henv : env.OneLine) (clients : List ClientInfo) :
    clientLines (clients.map (clientEntry env)).flatten = clients.map (clientLine env) := by
  induction clients with
  | nil => rfl
  | cons c clients ih =>
    obtain ⟨hentry, hnewline, hid⟩ := clientEntry_eq henv c
    have hempty : (lineId []).isSome = false := by decide
    rw [List.map_cons, List.flatten_cons, hentry, List.append_assoc, List.cons_append,
      List.cons_append, List.nil_append, clientLines_cons hnewline, hid,
      ← List.nil_append (10 :: _), clientLines_cons List.not_mem_nil, hempty, ih]
    rfl

/-- The listing has a line for each client, in the order of registration. -/
lemma clientLines_listClients (henv : env.OneLine) (clients : List ClientInfo) :
    clientLines (listClients env clients) = clients.map (clientLine env) := by
  unfold listClients
  split_ifs with hnone
  · rw [hnone, List.map_nil]
    decide
  · have hheader : cstr "Connected clients:\n" = cstr "Connected clients:" ++ 10 :: [] := by decide
    have hline : 10 ∉ cstr "Connected clients:" := by decide
    have hlabel : (lineId (cstr "Connected clients:")).isSome = false := by decide
    rw [hheader, List.append_assoc, List.cons_append, List.nil_append, clientLines_cons hline,
      hlabel, clientLines_entries henv]
    rfl

/-- The listing shows the ids in the table. -/
lemma listedIds_listClients (henv : env.OneLine) (clients : List ClientInfo) :
    listedIds (listClients env clients) = clients.map ClientInfo.idText := by
  rw [listedIds, clientLines_listClients henv, List.filterMap_map, ← List.filterMap_eq_map]
  congr 1
  funext c
  exact (clientEntry_eq henv c).2.2

/-! ### Kicking a client -/

lemma idText_eq_iff {id : ClientId} (c : ClientInfo) :
    c.idText = hexText id.toList ↔ c.clientId = id := by
  constructor
  · intro h
    have hbytes := congrArg leadingBytes h
    rw [ClientInfo.idText, leadingBytes_hexText, leadingBytes_hexText] at hbytes
    rw [← ClientId.ofBytes_toList c.clientId, hbytes, ClientId.ofBytes_toList]
  · rintro rfl
    rfl

lemma map_idText_kickClientById (id : ClientId) (clients : List ClientInfo) :
    (kickClientById id clients).map ClientInfo.idText
      = (clients.map ClientInfo.idText).erase (hexText id.toList) := by
  rw [List.erase_eq_eraseP, List.eraseP_map, kickClientById]
  congr 2
  funext c
  rw [Function.comp_apply, beq_eq_decide, Bool.eq_iff_iff, decide_eq_true_eq, decide_eq_true_eq,
    eq_comm (a := hexText _), idText_eq_iff]

/-- The line that goes is the first one that shows the id. -/
lemma map_clientLine_kickClientById (henv : env.OneLine) (id : ClientId)
    (clients : List ClientInfo) :
    (kickClientById id clients).map (clientLine env)
      = (clients.map (clientLine env)).eraseP fun l => lineId l = some (hexText id.toList) := by
  rw [List.eraseP_map, kickClientById]
  congr 2
  funext c
  simp only [Function.comp_apply, (clientEntry_eq henv c).2.2, Option.some.injEq, idText_eq_iff]

/-- A notice is sent if there is a client to kick. -/
lemma kickNotice_eq_nil_iff (id : ClientId) (clients : List ClientInfo) :
    kickNotice id clients = [] ↔ hexText id.toList ∉ clients.map ClientInfo.idText := by
  simp [kickNotice, List.find?_eq_none, idText_eq_iff]

/-- For the administrator the table is the listing: with 32 hexadecimal digits `KICK_CLIENT` takes
the first line that shows them out of it, all other lines stay as they are and in their order, and
somebody is told exactly if there was such a line. A later listing, at another time, shows the same
ids. -/
theorem kick_listed {server : Server} {showLogs : ℤ} {input : Bytes} {env' : AdminEnv}
    (hcommand : handleAdminCommand input = some (some (.kickClient (some text))))
    (htext : IsClientIdText text) (henv : env.OneLine) (henv' : env'.OneLine) :
    ∃ effect, executeAdminCommand env server showLogs input = some effect ∧
      clientLines (listClients env effect.server.clients)
        = (clientLines (listClients env server.clients)).eraseP
          (fun l => lineId l = some (text.map tolower)) ∧
      listedIds (listClients env' effect.server.clients)
        = (listedIds (listClients env server.clients)).erase (text.map tolower) ∧
      (effect.server.outbox = server.outbox ↔
        text.map tolower ∉ listedIds (listClients env server.clients)) := by
  have hlower := exists_parseClientId htext env.carg
  refine ⟨_, execute_kickClient hcommand, ?_, ?_, ?_⟩
  · rw [clientLines_listClients henv, clientLines_listClients henv,
      map_clientLine_kickClientById henv, hlower]
  · rw [listedIds_listClients henv, listedIds_listClients henv', map_idText_kickClientById, hlower]
  · rw [listedIds_listClients henv, ← hlower, ← kickNotice_eq_nil_iff]
    exact List.append_right_eq_self

/-- The id of the second of three clients, typed in upper case. -/
theorem kick_listed_upper :
    let server : Server :=
      { Server.init [] with
        clients := [⟨Vector.replicate 16 1, ⟨1, 1⟩, 0⟩, ⟨Vector.replicate 16 171, ⟨2, 2⟩, 0⟩,
          ⟨Vector.replicate 16 3, ⟨3, 3⟩, 0⟩] }
    let text : Bytes := (List.replicate 16 [65, 66]).flatten
    ∃ effect, executeAdminCommand default server 0 (cstr "KICK_CLIENT " ++ text) = some effect ∧
      clientLines (listClients default effect.server.clients)
        = (clientLines (listClients default server.clients)).eraseP
          (fun l => lineId l = some (text.map tolower)) ∧
      listedIds (listClients default effect.server.clients)
        = (listedIds (listClients default server.clients)).erase (text.map tolower) ∧
      (effect.server.outbox = server.outbox ↔
        text.map tolower ∉ listedIds (listClients default server.clients)) := by
  have honeLine : AdminEnv.OneLine default := fun _ => List.not_mem_nil
  exact kick_listed (by decide +kernel) (by decide) honeLine honeLine

end Pcd
