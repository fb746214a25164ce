import PcdProject.Server.AdminEffects

/-!
# Malformed arguments of the administrator's commands

`KICK_CLIENT` does not look at what `parse_client_id` returns, and kicks whoever has the id that is
then in the local buffer; `SET_MAX_UPLOADS` takes what `atoi` makes of its argument.
-/

namespace Pcd

open CText

/-- The table without the first client of the id, or as it was if there is none. -/
inductive RemovesClient (id : ClientId) : List ClientInfo → List ClientInfo → Prop where
  | absent (clients : List ClientInfo) (h : ∀ c ∈ clients, c.clientId ≠ id) :
      RemovesClient id clients clients
  | found (front : List ClientInfo) (c : ClientInfo) (back : List ClientInfo)
      (hc : c.clientId = id) (h : ∀ c ∈ front, c.clientId ≠ id) :
      RemovesClient id (front ++ c :: back) (front ++ back)

/-- A decimal integer from 0 to `MAX_UPLOADS`. -/
def IsLimitText (text : Bytes) : Prop :=
  ∃ n, decimalInteger text = some n ∧ 0 ≤ n ∧ n ≤ MAX_UPLOADS

/-- `set_max_uploads` does not ignore the number. -/
def IsLimit (n : ℤ) : Prop := 0 ≤ n ∧ n ≤ MAX_UPLOADS

variable {env : AdminEnv} {server : Server} {showLogs n : ℤ} {input text : Bytes} {id : ClientId}
variable {clients : List ClientInfo} {arg : Option Bytes}

/-! ### The two mutations -/

lemma kickClientById_eq_self_iff :
    kickClientById id clients = clients ↔ ∀ c ∈ clients, c.clientId ≠ id := by
  simp only [kickClientById, List.eraseP_eq_self_iff, decide_eq_true_eq, ne_eq]

lemma removesClient_kickClientById (id : ClientId) (clients : List ClientInfo) :
    RemovesClient id clients (kickClientById id clients) := by
  rcases List.exists_or_eq_self_of_eraseP (fun c => decide (c.clientId = id)) clients with
    heq | ⟨c, front, back, hfront, hc, hclients, heq⟩
  · have habsent := kickClientById_eq_self_iff.mp heq
    rw [kickClientById, heq]
    exact .absent clients habsent
  · rw [kickClientById, heq, hclients]
    exact .found front c back (of_decide_eq_true hc) fun d hd => by simpa using hfront d hd

lemma setMaxUploads_eq_self_iff :
    (server.setMaxUploads n).maxUploads = server.maxUploads ↔
      (IsLimit n → n = server.maxUploads) := by
  unfold Server.setMaxUploads IsLimit
  split_ifs with hout
  · simp only [true_iff]
    omega
  · have hin : 0 ≤ n ∧ n ≤ MAX_UPLOADS := by omega
    simp only [hin, and_self, true_imp_iff]

/-! ### The effect of the two commands -/

lemma execute_kickClient
    (hcommand : handleAdminCommand input = some (some (.kickClient (some text)))) :
    executeAdminCommand env server showLogs input = some
      ⟨{ server with
          clients := kickClientById (parseClientId text env.carg).1 server.clients
          outbox := server.outbox ++ kickNotice (parseClientId text env.carg).1 server.clients },
        showLogs, (cstr "User got kicked.\n\n").take 17⟩ := by
  simp only [executeAdminCommand, hcommand]
  rfl

lemma execute_kickClient_none
    (hcommand : handleAdminCommand input = some (some (.kickClient none))) :
    executeAdminCommand env server showLogs input
      = some ⟨server, showLogs, (cstr "Usage: KICK_CLIENT <id>\n").take 23⟩ := by
  simp only [executeAdminCommand, hcommand]
  rfl

lemma execute_setMaxUploads
    (hcommand : handleAdminCommand input = some (some (.setMaxUploads (some text)))) :
    executeAdminCommand env server showLogs input
      = some ⟨server.setMaxUploads (atoi text), showLogs,
        (cstr "New upload limit set.\n\n").take 22⟩ := by
  simp only [executeAdminCommand, hcommand]
  rfl

lemma execute_setMaxUploads_none
    (hcommand : handleAdminCommand input = some (some (.setMaxUploads none))) :
    executeAdminCommand env server showLogs input
      = some ⟨server, showLogs, (cstr "Usage: SET_MAX_UPLOADS <n>\n\n").take 26⟩ := by
  simp only [executeAdminCommand, hcommand]
  rfl

/-- A well-formed number becomes the limit. -/
lemma maxUploads_of_decimalInteger
    (hcommand : handleAdminCommand input = some (some (.setMaxUploads (some text))))
    (htext : decimalInteger text = some n) (hn : IsLimit n) :
    ∃ effect, executeAdminCommand env server showLogs input = some effect ∧
      effect.server.maxUploads = n := by
  obtain ⟨hlow, hhigh⟩ := hn
  have hmax : MAX_UPLOADS < 2 ^ 31 := by decide
  have hatoi : atoi text = n := atoi_of_decimalInteger htext (by omega) (by omega)
  refine ⟨_, execute_setMaxUploads hcommand, ?_⟩
  rw [hatoi, Server.setMaxUploads, if_neg (by omega)]

/-! ### Main result -/

/-- A malformed argument changes nothing, and a well-formed id removes its client. -/
structure MalformedIgnored (env : AdminEnv) (server : Server) (showLogs : ℤ) (input : Bytes) :
    Prop where
  kick : ∀ arg, handleAdminCommand input = some (some (.kickClient arg)) →
    ∃ effect, executeAdminCommand env server showLogs input = some effect ∧
      ((∀ text, arg = some text → ¬ IsClientIdText text) →
        effect.server.clients = server.clients) ∧
      ∀ text, arg = some text → IsClientIdText text →
        ∃ id : ClientId, hexText id.toList = text.map tolower ∧
          RemovesClient id server.clients effect.server.clients
  limit : ∀ arg, handleAdminCommand input = some (some (.setMaxUploads arg)) →
    ∃ effect, executeAdminCommand env server showLogs input = some effect ∧
      ((∀ text, arg = some text → ¬ IsLimitText text) →
        effect.server.maxUploads = server.maxUploads)

/-- Nobody has the id that a malformed argument leaves in the buffer, and what `atoi` makes of a
malformed number is out of range or the limit that is set. -/
structure ArgumentHarmless (env : AdminEnv) (server : Server) (input : Bytes) : Prop where
  kick : ∀ text, handleAdminCommand input = some (some (.kickClient (some text))) →
    ¬ IsClientIdText text → ∀ c ∈ server.clients, c.clientId ≠ env.carg.overlay (idBytes text)
  limit : ∀ text, handleAdminCommand input = some (some (.setMaxUploads (some text))) →
    ¬ IsLimitText text → IsLimit (atoi text) → atoi text = server.maxUploads

/-- The id of a well-formed argument. -/
lemma exists_parseClientId (htext : IsClientIdText text) (outId : ClientId) :
    hexText (parseClientId text outId).1.toList = text.map tolower := by
  obtain ⟨hlen, hdigits⟩ := htext
  obtain ⟨hlower, hlength⟩ := hexText_leadingBytes (k := 16) hlen hdigits
  rw [parseClientId_eq, idBytes, if_pos hlen, ClientId.overlay_of_length hlength,
    ClientId.toList_ofBytes hlength, hlower]

/-- Malformed arguments change nothing exactly if they are harmless. -/
theorem malformedIgnored_iff (env : AdminEnv) (server : Server) (showLogs : ℤ) (input : Bytes) :
    MalformedIgnored env server showLogs input ↔ ArgumentHarmless env server input := by
  constructor
  · intro h
    constructor
    · intro text hcommand htext
      obtain ⟨effect, heffect, hmalformed, -⟩ := h.kick (some text) hcommand
      rw [execute_kickClient hcommand] at heffect
      cases heffect
      have hsame := hmalformed fun t ht => by
        cases ht
        exact htext
      rw [parseClientId_eq] at hsame
      exact kickClientById_eq_self_iff.mp hsame
    · intro text hcommand htext
      obtain ⟨effect, heffect, hmalformed⟩ := h.limit (some text) hcommand
      rw [execute_setMaxUploads hcommand] at heffect
      cases heffect
      have hsame := hmalformed fun t ht => by
        cases ht
        exact htext
      exact setMaxUploads_eq_self_iff.mp hsame
  · intro h
    constructor
    · intro arg hcommand
      cases arg with
      | none =>
        refine ⟨_, execute_kickClient_none hcommand, fun _ => rfl, ?_⟩
        rintro text ⟨⟩
      | some text =>
        refine ⟨_, execute_kickClient hcommand, ?_, ?_⟩
        · intro hmalformed
          rw [parseClientId_eq]
          exact kickClientById_eq_self_iff.mpr (h.kick text hcommand (hmalformed text rfl))
        · rintro text ⟨⟩ htext
          exact ⟨_, exists_parseClientId htext env.carg, removesClient_kickClientById _ _⟩
    · intro arg hcommand
      cases arg with
      | none => exact ⟨_, execute_setMaxUploads_none hcommand, fun _ => rfl⟩
      | some text =>
        refine ⟨_, execute_setMaxUploads hcommand, ?_⟩
        intro hmalformed
        exact setMaxUploads_eq_self_iff.mpr (h.limit text hcommand (hmalformed text rfl))

/-- `SET_MAX_UPLOADS abc` sets the limit to 0. -/
theorem not_malformedIgnored_abc :
    ¬ ∀ env server showLogs input, MalformedIgnored env server showLogs input := by
  intro h
  have hcommand : handleAdminCommand (cstr "SET_MAX_UPLOADS abc")
      = some (some (.setMaxUploads (some (cstr "abc")))) := by decide
  obtain ⟨effect, heffect, hmalformed⟩ :=
    (h default (.init []) 0 (cstr "SET_MAX_UPLOADS abc")).limit _ hcommand
  rw [execute_setMaxUploads hcommand] at heffect
  cases heffect
  have hsame := hmalformed fun text htext => by
    cases htext
    rintro ⟨n, hn, -⟩
    have habc : decimalInteger (cstr "abc") = none := by decide
    rw [habc] at hn
    cases hn
  exact absurd hsame (by decide)

end Pcd
