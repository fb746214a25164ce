import PcdProject.Server.AdminCommand
import PcdProject.Server.ClientIdText
import PcdProject.Server.QueueListing
import PcdProject.Server.System

/-!
# What the commands of the administrator do

The effect of `handle_admin_command` on the log mode of the session, on the server and on the
connection. Which whitespace surrounds a command makes a difference: `trim_whitespace` moves its own
pointer only, and `strtok` does not skip all that `isspace` accepts.
-/

namespace Pcd

open CText

/-- What the system and the stack contribute: the texts of `ctime_r` and `strftime`, and what the
buffers of the functions hold when they are entered. -/
structure AdminEnv where
  ctime : ℤ → Bytes
  strftime : ℤ → Bytes
  buffer : Vector UInt8 LISTING_BUFFER_SIZE
  idStr : Vector UInt8 33
  carg : ClientId

/-- The server and the log mode of the session afterwards, and the bytes sent to the client. -/
structure AdminEffect where
  server : Server
  showLogs : ℤ
  reply : Bytes

/-! ### The replies -/

def helpText : Bytes :=
  cstr "Available commands:\n"
    ++ cstr "  HELP\n"
    ++ cstr "      Show this help message.\n\n"
    ++ cstr "  SHOW_CLIENTS\n"
    ++ cstr "      List all currently connected clients.\n\n"
    ++ cstr "  KICK_CLIENT <client_id>\n"
    ++ cstr "      Disconnect a specific client by ID.\n\n"
    ++ cstr "  SHOW_QUEUE\n"
    ++ cstr "      Display the processing queue.\n\n"
    ++ cstr "  SET_MAX_UPLOADS <number>\n"
    ++ cstr "      Set the maximum number of simultaneous uploads.\n\n"
    ++ cstr "  SHOW_LOGS\n"
    ++ cstr "      Stream logs from the server in real-time (tail -f style).\n\n"
    ++ cstr "  EXIT\n"
    ++ cstr "      Close the admin session.\n\n"

/-- `inet_ntop` of an address in the order of its bytes in memory. -/
def inetNtop (ip : UInt32) : Bytes :=
  decimal (ip.toNat % 256) ++ cstr "." ++ decimal (ip.toNat / 256 % 256) ++ cstr "."
    ++ decimal (ip.toNat / 256 ^ 2 % 256) ++ cstr "." ++ decimal (ip.toNat / 256 ^ 3)

/-- The line of a client in `list_clients`; `htons` is its own inverse. -/
def clientEntry (env : AdminEnv) (c : ClientInfo) : Bytes :=
  cstr "  ID: " ++ (formatClientIdHex c.clientId env.idStr).takeWhile (· ≠ 0)
    ++ cstr "\t  IP: " ++ inetNtop c.addr.ip ++ cstr ":" ++ decimal (htons c.addr.port).toNat
    ++ cstr "\t  Last heartbeat: " ++ env.strftime c.lastHeartbeat ++ cstr "\n\n"

def listClients (env : AdminEnv) (clients : List ClientInfo) : Bytes :=
  if clients = [] then cstr "[No connected clients]\n"
  else cstr "Connected clients:\n" ++ (clients.map (clientEntry env)).flatten

/-! ### The commands -/

namespace AdminCommand

/-- The calls of `kick_client_by_id` and `set_max_uploads`. -/
def serverActions (env : AdminEnv) : AdminCommand → List Action
  | .kickClient (some arg)    => [.kick (parseClientId arg env.carg).1]
  | .setMaxUploads (some arg) => [.setMaxUploads (atoi arg)]
  | _                         => []

/-- The bytes that are sent; `none` if the listing of the jobs leaves its buffer. -/
def reply (env : AdminEnv) (server : Server) : AdminCommand → Option Bytes
  | .help                   => some helpText
  | .showLogs               => some ((cstr "[Streaming logs]\n").take 17)
  | .stopLogs               => some []
  | .kickClient none        => some ((cstr "Usage: KICK_CLIENT <id>\n").take 23)
  | .kickClient (some _)    => some ((cstr "User got kicked.\n\n").take 17)
  | .setMaxUploads none     => some ((cstr "Usage: SET_MAX_UPLOADS <n>\n\n").take 26)
  | .setMaxUploads (some _) => some ((cstr "New upload limit set.\n\n").take 22)
  | .showClients            => some (listClients env server.clients)
  | .showQueue              => showProcessingQueue env.ctime env.buffer server.pendingJobs
  | .exit                   => some ((cstr "Goodbye.\n\n").take 9)
  | .unknown                => some ((cstr "Unknown command.\n\n").take 17)

def execute (env : AdminEnv) (server : Server) (showLogs : ℤ) (command : AdminCommand) :
    Option AdminEffect := do
  let reply ← command.reply env server
  let server ← Transition.run Server.step server (command.serverActions env)
  some ⟨server, command.logMode showLogs, reply⟩

end AdminCommand

/-- The effect of `handle_admin_command`; `none` if it reads through a null pointer or leaves a
buffer. -/
def executeAdminCommand (env : AdminEnv) (server : Server) (showLogs : ℤ) (input : Bytes) :
    Option AdminEffect :=
  match handleAdminCommand input with
  | none                => none
  | some none           => some ⟨server, showLogs, []⟩
  | some (some command) => command.execute env server showLogs

/-! ### Whitespace around a command -/

/-- The input without the whitespace in front and at the end. -/
def strip (input : Bytes) : Bytes := (input.dropWhile isspace).rdropWhile isspace

def commandNames : List Bytes :=
  [cstr "HELP", cstr "SHOW_LOGS", cstr "STOP_LOGS", cstr "KICK_CLIENT", cstr "SET_MAX_UPLOADS",
    cstr "SHOW_CLIENTS", cstr "SHOW_QUEUE", cstr "EXIT"]

/-- The first word of a line, without blanks in front. -/
def firstWord (line : Bytes) : Bytes := line.takeWhile (! isBlank ·)

def IsCommandName (word : Bytes) : Prop := ∃ name ∈ commandNames, strcaseeq word name

variable {input lead core word : Bytes} {arg : Option Bytes} {command : AdminCommand}

lemma AdminCommand.ofTokens_eq_unknown_iff :
    AdminCommand.ofTokens word arg = .unknown ↔ ¬ IsCommandName word := by
  simp only [IsCommandName, commandNames, List.mem_cons, List.not_mem_nil, or_false,
    exists_eq_or_imp, exists_eq_left, not_or, AdminCommand.ofTokens]
  split_ifs <;> simp_all

/-- No name contains whitespace. -/
lemma not_isCommandName_of_mem {b : UInt8} (hb : b ∈ word) (hspace : isspace b) :
    ¬ IsCommandName word := by
  rintro ⟨name, hname, heq⟩
  have hlower : word.map tolower = name.map tolower := of_decide_eq_true heq
  have hmem : b ∈ name.map tolower := by
    rw [← hlower, ← tolower_of_isspace hspace]
    exact List.mem_map_of_mem hb
  have hnames : ∀ name ∈ commandNames, (name.map tolower).all (! isspace ·) = true := by
    simp only [commandNames, List.forall_mem_cons, List.not_mem_nil, false_imp_iff, implies_true,
      and_true]
    decide
  have hnot := List.all_eq_true.mp (hnames name hname) b hmem
  rw [hspace] at hnot
  cases hnot

/-- The whitespace in front, the stripped line, and what the right trim removes. -/
lemma rdropWhile_eq_append (hinput : ¬ ∀ b ∈ input, isspace b) :
    input.rdropWhile isspace = input.takeWhile isspace ++ strip input := by
  have hne : strip input ≠ [] := by
    intro hnil
    apply hinput
    rw [strip, List.rdropWhile_eq_nil_iff] at hnil
    intro b hb
    rw [← List.takeWhile_append_dropWhile (p := isspace) (l := input), List.mem_append] at hb
    rcases hb with hlead | hrest
    · exact List.mem_takeWhile_imp hlead
    · exact hnil b hrest
  conv_lhs => rw [← List.takeWhile_append_dropWhile (p := isspace) (l := input)]
  exact rdropWhile_append _ hne

/-- A stripped line begins and ends with a byte that is no whitespace. -/
lemma exists_cons_strip (hinput : ¬ ∀ b ∈ input, isspace b) :
    ∃ b rest, strip input = b :: rest ∧ ¬ isspace b ∧
      trimWhitespace (strip input) = strip input := by
  have hdrop : input.dropWhile isspace ≠ [] := by
    rw [ne_eq, List.dropWhile_eq_nil_iff]
    exact hinput
  obtain ⟨b, rest, hrest⟩ := List.exists_cons_of_ne_nil hdrop
  have hb : ¬ isspace b := by
    have hhead := List.head_dropWhile_not isspace hdrop
    simp only [hrest, List.head_cons] at hhead
    simp [hhead]
  have hmem : b ∈ strip input := mem_rdropWhile (hrest ▸ List.mem_cons_self) hb
  have htrim : trimWhitespace (strip input) = strip input := by
    rw [trimWhitespace_of_mem hmem hb]
    exact List.rdropWhile_idempotent _ _
  have hfront : strip input <+: b :: rest := hrest ▸ List.rdropWhile_prefix _ _
  cases hstrip : strip input with
  | nil =>
    rw [hstrip] at hmem
    cases hmem
  | cons c core =>
    rw [hstrip] at hfront htrim
    obtain ⟨rfl, -⟩ := List.cons_prefix_cons.mp hfront
    exact ⟨c, core, rfl, hb, htrim⟩

/-- The command of a stripped line is named by its first word. -/
lemma handleAdminCommand_strip (hinput : ¬ ∀ b ∈ input, isspace b) :
    ∃ arg, handleAdminCommand (strip input)
      = some (some (.ofTokens (firstWord (strip input)) arg)) := by
  obtain ⟨b, rest, hstrip, hb, htrim⟩ := exists_cons_strip hinput
  have hblank : ¬ isBlank b := fun hblank => hb (isspace_of_isBlank hblank)
  rw [handleAdminCommand, htrim, hstrip]
  simp only [strtok_of_not hblank]
  rw [if_neg (by simp)]
  exact ⟨_, rfl⟩

/-- Blanks in front are skipped. -/
lemma handleAdminCommand_of_blank (hinput : ¬ ∀ b ∈ input, isspace b)
    (hlead : ∀ b ∈ input.takeWhile isspace, isBlank b) :
    handleAdminCommand input = handleAdminCommand (strip input) := by
  obtain ⟨b, rest, hstrip, hb, htrim⟩ := exists_cons_strip hinput
  push Not at hinput
  obtain ⟨c, hc, hspace⟩ := hinput
  have hinput : ¬ ∀ b ∈ input, isspace b := fun hall => hspace (hall c hc)
  simp only [handleAdminCommand, htrim, trimWhitespace_of_mem hc hspace,
    rdropWhile_eq_append hinput, strtok_append hlead]
  rw [if_neg (by simp [hstrip]), if_neg (by simp [hstrip])]

/-- Other whitespace in front is part of the first word, which then is no name. -/
lemma handleAdminCommand_of_not_blank (hinput : ¬ ∀ b ∈ input, isspace b)
    (hlead : ¬ ∀ b ∈ input.takeWhile isspace, isBlank b) :
    handleAdminCommand input = some (some .unknown) := by
  have hdrop : (input.takeWhile isspace).dropWhile isBlank ≠ [] := by
    rw [ne_eq, List.dropWhile_eq_nil_iff]
    exact hlead
  obtain ⟨c, more, hmore⟩ := List.exists_cons_of_ne_nil hdrop
  have hblank : ¬ isBlank c := by
    have hhead := List.head_dropWhile_not isBlank hdrop
    simp only [hmore, List.head_cons] at hhead
    simp [hhead]
  have hspace : isspace c := by
    apply List.mem_takeWhile_imp (l := input)
    apply (List.dropWhile_suffix isBlank).subset
    rw [hmore]
    exact List.mem_cons_self
  have htrim : trimWhitespace input = input.takeWhile isspace ++ strip input := by
    push Not at hinput
    obtain ⟨b, hb, hnot⟩ := hinput
    rw [trimWhitespace_of_mem hb hnot]
    exact rdropWhile_eq_append fun hall => hnot (hall b hb)
  have htoken : strtok isBlank (trimWhitespace input)
      = strtok isBlank (c :: (more ++ strip input)) := by
    rw [htrim, ← List.takeWhile_append_dropWhile (p := isBlank) (l := input.takeWhile isspace),
      hmore, List.append_assoc]
    exact strtok_append fun b hb => List.mem_takeWhile_imp hb
  have hne : (trimWhitespace input).length ≠ 0 := by
    have hlength := congrArg List.length htrim
    have hsplit := congrArg List.length
      (List.takeWhile_append_dropWhile (p := isBlank) (l := input.takeWhile isspace))
    rw [hmore] at hsplit
    simp only [List.length_append, List.length_cons] at hlength hsplit
    omega
  simp only [handleAdminCommand, htoken, strtok_of_not hblank]
  rw [if_neg hne, Option.map_some, AdminCommand.ofTokens_eq_unknown_iff.mpr]
  apply not_isCommandName_of_mem (b := c) _ hspace
  rw [List.takeWhile_cons_of_pos (by simp [hblank])]
  exact List.mem_cons_self

/-! ### Replies tell the commands apart -/

instance : Inhabited AdminEnv :=
  ⟨⟨fun _ => [], fun _ => [], Vector.replicate _ 0, Vector.replicate _ 0, Vector.replicate _ 0⟩⟩

variable {env : AdminEnv} {server : Server} {showLogs : ℤ} {effect : AdminEffect}

lemma AdminCommand.reply_of_execute (h : command.execute env server showLogs = some effect) :
    command.reply env server = some effect.reply := by
  simp only [execute, Option.bind_eq_bind, Option.bind_eq_some_iff] at h
  obtain ⟨reply, hreply, t, -, heq⟩ := h
  cases heq
  exact hreply

lemma AdminCommand.execute_unknown : AdminCommand.unknown.execute env server showLogs
    = some ⟨server, showLogs, cstr "Unknown command.\n"⟩ := rfl

/-- On an idle server no other command has the effect of an unknown one. -/
lemma AdminCommand.execute_ne_unknown (h : command ≠ .unknown) :
    command.execute default (.init []) 0 ≠ AdminCommand.unknown.execute default (.init []) 0 := by
  intro heq
  rw [execute_unknown] at heq
  have hreply := reply_of_execute heq
  cases command with
  | help => exact absurd hreply (by decide)
  | showLogs => exact absurd hreply (by decide)
  | stopLogs => exact absurd hreply (by decide)
  | kickClient arg =>
    cases arg with
    | none => exact absurd hreply (by decide)
    | some arg =>
      change some ((cstr "User got kicked.\n\n").take 17) = _ at hreply
      exact absurd hreply (by decide)
  | setMaxUploads arg =>
    cases arg with
    | none => exact absurd hreply (by decide)
    | some arg =>
      change some ((cstr "New upload limit set.\n\n").take 22) = _ at hreply
      exact absurd hreply (by decide)
  | showClients => exact absurd hreply (by decide)
  | showQueue => exact absurd hreply (by decide)
  | exit => exact absurd hreply (by decide)
  | unknown => exact h rfl

/-! ### Main result -/

/-- The whitespace around an input makes no difference, an input of whitespace executes nothing, and
there always is a token. -/
structure WhitespaceIgnored (input : Bytes) : Prop where
  stripped : ∀ env server showLogs, executeAdminCommand env server showLogs input
    = executeAdminCommand env server showLogs (strip input)
  blank    : (∀ b ∈ input, isspace b) → ∀ env server showLogs,
    executeAdminCommand env server showLogs input = some ⟨server, showLogs, []⟩
  token    : handleAdminCommand input ≠ none

/-- Spaces, tabs and newlines only in front of the first word, or none that is a command. -/
def SkipsWhitespace (input : Bytes) : Prop :=
  (∀ b ∈ input.takeWhile isspace, isBlank b) ∨ ¬ IsCommandName (firstWord (strip input))

lemma executeAdminCommand_of_isspace (hspace : ∀ b ∈ input, isspace b) (hne : input ≠ []) :
    executeAdminCommand env server showLogs input ≠ some ⟨server, showLogs, []⟩ := by
  intro heq
  unfold executeAdminCommand at heq
  split at heq
  case h_1 => cases heq
  case h_2 hnothing => exact hne (handleAdminCommand_eq_some_none_iff.mp hnothing)
  case h_3 command hcommand =>
    obtain ⟨token, rest, htoken, rfl⟩ := exists_token_of_handleAdminCommand hcommand
    rw [trimWhitespace_of_isspace hspace] at htoken
    obtain ⟨b, more, rfl⟩ := List.exists_cons_of_ne_nil (token_ne_nil htoken)
    have hb := mem_of_mem_token htoken List.mem_cons_self
    have hname : ¬ IsCommandName (b :: more) :=
      not_isCommandName_of_mem List.mem_cons_self (hspace b hb)
    rw [AdminCommand.ofTokens_eq_unknown_iff.mpr hname, AdminCommand.execute_unknown] at heq
    cases heq

/-- The whitespace around an input is ignored exactly if the input is empty, or if it is not made of
whitespace and skips the whitespace in front of its first word. -/
theorem whitespaceIgnored_iff (input : Bytes) :
    WhitespaceIgnored input ↔
      input = [] ∨ (¬ ∀ b ∈ input, isspace b) ∧ SkipsWhitespace input := by
  by_cases hspace : ∀ b ∈ input, isspace b
  · rw [or_iff_left fun h => h.1 hspace]
    constructor
    · intro h
      by_contra hne
      exact executeAdminCommand_of_isspace hspace hne (h.blank hspace default (.init []) 0)
    · rintro rfl
      exact ⟨fun _ _ _ => rfl, fun _ _ _ _ => rfl, by decide⟩
  · have hne : input ≠ [] := by
      rintro rfl
      exact hspace fun b hb => absurd hb List.not_mem_nil
    rw [or_iff_right hne, and_iff_right hspace]
    obtain ⟨arg, hstrip⟩ := handleAdminCommand_strip hspace
    by_cases hlead : ∀ b ∈ input.takeWhile isspace, isBlank b
    · have heq := handleAdminCommand_of_blank hspace hlead
      refine iff_of_true ⟨?_, fun h => absurd h hspace, ?_⟩ (.inl hlead)
      · intro env server showLogs
        simp only [executeAdminCommand, heq]
      · rw [heq, hstrip]
        exact Option.some_ne_none _
    · have hunknown := handleAdminCommand_of_not_blank hspace hlead
      have hname : AdminCommand.ofTokens (firstWord (strip input)) arg = .unknown ↔ _ :=
        AdminCommand.ofTokens_eq_unknown_iff
      rw [SkipsWhitespace, or_iff_right hlead, ← hname]
      constructor
      · intro h
        have heffect := h.stripped default (.init []) 0
        simp only [executeAdminCommand, hunknown, hstrip] at heffect
        by_contra hname
        exact AdminCommand.execute_ne_unknown hname heffect.symm
      · intro hname
        refine ⟨?_, fun h => absurd h hspace, ?_⟩
        · intro env server showLogs
          simp only [executeAdminCommand, hunknown, hstrip, hname]
        · rw [hunknown]
          exact Option.some_ne_none _

/-- A single space has no token. -/
theorem not_whitespaceIgnored_space : ¬ ∀ input, WhitespaceIgnored input := by
  intro h
  exact (h [32]).token (by decide)

end Pcd
