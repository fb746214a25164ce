import PcdProject.Core.CBuffer
import PcdProject.Core.CText
import PcdProject.Protocol.Messages

/-!
# The commands of the administrator

Which command `handle_admin_command` reads from its input, and the commands that `admin_thread`
executes in a session: it takes the bytes of each `recv` for the input of one command.
-/

namespace Pcd

open CText

/-- The branches of `handle_admin_command`, with the argument where the branch reads it. -/
inductive AdminCommand where
  | help
  | showLogs
  | stopLogs
  | kickClient (arg : Option Bytes)
  | setMaxUploads (arg : Option Bytes)
  | showClients
  | showQueue
  | exit
  | unknown
  deriving DecidableEq, Repr

/-- The left trim moves a pointer of `trim_whitespace` only: the string keeps its blanks in front,
and one of blanks only stays as it is. -/
def trimWhitespace (str : Bytes) : Bytes :=
  if str.dropWhile isspace = [] then str else str.rdropWhile isspace

/-- `" \t\n"` -/
def isBlank (b : UInt8) : Bool := b = 32 ∨ b = 9 ∨ b = 10

def isNewline (b : UInt8) : Bool := b = 10

namespace AdminCommand

def ofTokens (cmd : Bytes) (arg : Option Bytes) : AdminCommand :=
  if strcaseeq cmd (cstr "HELP") then .help
  else if strcaseeq cmd (cstr "SHOW_LOGS") then .showLogs
  else if strcaseeq cmd (cstr "STOP_LOGS") then .stopLogs
  else if strcaseeq cmd (cstr "KICK_CLIENT") then .kickClient arg
  else if strcaseeq cmd (cstr "SET_MAX_UPLOADS") then .setMaxUploads arg
  else if strcaseeq cmd (cstr "SHOW_CLIENTS") then .showClients
  else if strcaseeq cmd (cstr "SHOW_QUEUE") then .showQueue
  else if strcaseeq cmd (cstr "EXIT") then .exit
  else .unknown

/-- The value of `*show_logs` afterwards. -/
def logMode (showLogs : ℤ) : AdminCommand → ℤ
  | .showLogs => 1
  | .stopLogs => 0
  | .exit     => -1
  | _         => showLogs

end AdminCommand

/-- The command that `handle_admin_command` executes for an input, `some none` if there is none.
`none`: `strtok` has found no token, and `strcasecmp` reads through a null pointer. -/
def handleAdminCommand (input : Bytes) : Option (Option AdminCommand) :=
  let trimmed := trimWhitespace input
  if trimmed.length = 0 then some none
  else
    (strtok isBlank trimmed).map fun (cmd, rest) =>
      some (.ofTokens cmd ((strtok isNewline rest).map Prod.fst))

/-- The commands that a session executes for the results of its calls of `recv`, each with its
input. -/
def adminThread (showLogs : ℤ) : List Bytes → List (Bytes × AdminCommand)
  | []               => []
  | recvBuf :: recvs =>
    match handleAdminCommand (recvBuf.takeWhile (· ≠ 0)) with
    | none                => []
    | some none           => adminThread showLogs recvs
    | some (some command) =>
      (recvBuf, command) ::
        if command.logMode showLogs = -1 then []
        else adminThread (command.logMode showLogs) recvs

/-! ### Inputs -/

/-- Nothing but spaces, tabs and newlines. -/
def AllBlank (line : Bytes) : Prop := ∀ b ∈ line, isBlank b

instance (line : Bytes) : Decidable (AllBlank line) := List.decidableBAll _ _

/-- The first word, without whitespace at the end of the line, is `EXIT` in upper or lower case. -/
def NamesExit (line : Bytes) : Prop :=
  strcaseeq (((line.rdropWhile isspace).dropWhile isBlank).takeWhile (! isBlank ·)) (cstr "EXIT")

instance (line : Bytes) : Decidable (NamesExit line) :=
  inferInstanceAs (Decidable (_ = true))

variable {input cmd : Bytes} {arg : Option Bytes} {command : AdminCommand} {showLogs : ℤ}

lemma isspace_of_isBlank {b : UInt8} (hb : isBlank b) : isspace b := by
  rcases of_decide_eq_true hb with rfl | rfl | rfl <;> rfl

lemma trimWhitespace_of_isspace (h : ∀ b ∈ input, isspace b) : trimWhitespace input = input :=
  if_pos (List.dropWhile_eq_nil_iff.mpr h)

lemma trimWhitespace_of_mem {b : UInt8} (hb : b ∈ input) (hspace : ¬ isspace b) :
    trimWhitespace input = input.rdropWhile isspace := by
  apply if_neg
  intro h
  exact hspace (List.dropWhile_eq_nil_iff.mp h b hb)

lemma trimWhitespace_eq_nil_iff : trimWhitespace input = [] ↔ input = [] := by
  constructor
  · intro h
    by_cases hspace : ∀ b ∈ input, isspace b
    · rwa [trimWhitespace_of_isspace hspace] at h
    · push Not at hspace
      obtain ⟨b, hb, hnot⟩ := hspace
      have hmem : b ∈ trimWhitespace input := by
        rw [trimWhitespace_of_mem hb hnot]
        exact mem_rdropWhile hb hnot
      rw [h] at hmem
      cases hmem
  · rintro rfl
    rfl

/-- Blanks in front survive the trim, so a trimmed line is blank only if the line was. -/
lemma allBlank_trimWhitespace_iff : AllBlank (trimWhitespace input) ↔ AllBlank input := by
  by_cases hspace : ∀ b ∈ input, isspace b
  · rw [trimWhitespace_of_isspace hspace]
  · push Not at hspace
    obtain ⟨b, hb, hnot⟩ := hspace
    constructor
    · intro h
      rw [trimWhitespace_of_mem hb hnot] at h
      exact absurd (isspace_of_isBlank (h b (mem_rdropWhile hb hnot))) hnot
    · intro h
      exact absurd (isspace_of_isBlank (h b hb)) hnot

lemma handleAdminCommand_eq_none_iff :
    handleAdminCommand input = none ↔ input ≠ [] ∧ AllBlank input := by
  rw [← allBlank_trimWhitespace_iff, ne_eq, ← trimWhitespace_eq_nil_iff,
    ← List.length_eq_zero_iff]
  simp only [handleAdminCommand]
  split_ifs with hzero
  · simp [hzero]
  · rw [Option.map_eq_none_iff, strtok_eq_none_iff]
    exact (and_iff_right hzero).symm

lemma handleAdminCommand_eq_some_none_iff :
    handleAdminCommand input = some none ↔ input = [] := by
  rw [← trimWhitespace_eq_nil_iff, ← List.length_eq_zero_iff]
  simp only [handleAdminCommand]
  split_ifs with hzero
  · simp [hzero]
  · simp [hzero, Option.map_eq_some_iff]

/-- The other names differ from `EXIT`. -/
lemma AdminCommand.ofTokens_eq_exit_iff :
    AdminCommand.ofTokens cmd arg = .exit ↔ strcaseeq cmd (cstr "EXIT") := by
  constructor
  · intro h
    unfold ofTokens at h
    split_ifs at h
    assumption
  · intro h
    have hcmd : cmd.map tolower = (cstr "EXIT").map tolower := of_decide_eq_true h
    simp only [ofTokens, strcaseeq, hcmd]
    rfl

lemma exists_token_of_handleAdminCommand (h : handleAdminCommand input = some (some command)) :
    ∃ token rest, strtok isBlank (trimWhitespace input) = some (token, rest) ∧
      command = .ofTokens token ((strtok isNewline rest).map Prod.fst) := by
  simp only [handleAdminCommand] at h
  split at h
  · cases h
  · obtain ⟨⟨token, rest⟩, htoken, hcommand⟩ := Option.map_eq_some_iff.mp h
    exact ⟨token, rest, htoken, (Option.some.inj hcommand).symm⟩

/-- Whitespace does not spell `EXIT`. -/
lemma not_strcaseeq_of_isspace (h : ∀ b ∈ cmd, isspace b) : ¬ strcaseeq cmd (cstr "EXIT") := by
  intro heq
  have hlower : cmd.map tolower = cstr "exit" := of_decide_eq_true heq
  have hsame : cmd.map tolower = cmd := by
    rw [List.map_congr_left fun b hb => tolower_of_isspace (h b hb), List.map_id']
  rw [hsame] at hlower
  have he : isspace 101 := h 101 (by rw [hlower]; decide)
  cases he

/-- The command is `EXIT` if and only if its line names it. -/
lemma handleAdminCommand_eq_exit_iff :
    handleAdminCommand input = some (some .exit) ↔ NamesExit input := by
  by_cases hspace : ∀ b ∈ input, isspace b
  · have hempty : input.rdropWhile isspace = [] := List.rdropWhile_eq_nil_iff.mpr hspace
    constructor
    · intro h
      obtain ⟨token, rest, htoken, hexit⟩ := exists_token_of_handleAdminCommand h
      rw [trimWhitespace_of_isspace hspace] at htoken
      have hnames := AdminCommand.ofTokens_eq_exit_iff.mp hexit.symm
      exact absurd hnames
        (not_strcaseeq_of_isspace fun b hb => hspace b (mem_of_mem_token htoken hb))
    · intro h
      rw [NamesExit, hempty] at h
      cases h
  · push Not at hspace
    obtain ⟨b, hb, hnot⟩ := hspace
    have htrim := trimWhitespace_of_mem hb hnot
    constructor
    · intro h
      obtain ⟨token, rest, htoken, hexit⟩ := exists_token_of_handleAdminCommand h
      have hnames := AdminCommand.ofTokens_eq_exit_iff.mp hexit.symm
      rw [token_of_strtok htoken, htrim] at hnames
      exact hnames
    · intro h
      cases hhandle : handleAdminCommand input with
      | none =>
        have hblank := (handleAdminCommand_eq_none_iff.mp hhandle).2
        exact absurd (isspace_of_isBlank (hblank b hb)) hnot
      | some found =>
        cases found with
        | none =>
          rw [handleAdminCommand_eq_some_none_iff.mp hhandle] at hb
          cases hb
        | some command =>
          obtain ⟨token, rest, htoken, rfl⟩ := exists_token_of_handleAdminCommand hhandle
          have hword := token_of_strtok htoken
          rw [htrim] at hword
          rw [AdminCommand.ofTokens_eq_exit_iff.mpr (hword ▸ h)]

/-! ### Sessions -/

lemma AdminCommand.logMode_eq_neg_one_iff (hshow : showLogs ≠ -1) :
    command.logMode showLogs = -1 ↔ command = .exit := by
  cases command <;> simp [logMode, hshow]

/-- Each command stands for one `recv`. -/
lemma adminThread_sublist (showLogs : ℤ) (recvs : List Bytes) :
    List.Sublist ((adminThread showLogs recvs).map Prod.fst) recvs := by
  induction recvs generalizing showLogs with
  | nil => exact List.Sublist.refl _
  | cons recvBuf recvs ih =>
    unfold adminThread
    split
    · exact List.nil_sublist _
    · exact (ih showLogs).cons _
    · rw [List.map_cons]
      apply List.Sublist.cons_cons
      split
      · exact List.nil_sublist _
      · exact ih _

/-- The command is the one that `handle_admin_command` reads from its input. -/
lemma handleAdminCommand_of_mem_adminThread {recvs : List Bytes} {recvBuf : Bytes}
    (h : (recvBuf, command) ∈ adminThread showLogs recvs) :
    handleAdminCommand (recvBuf.takeWhile (· ≠ 0)) = some (some command) := by
  induction recvs generalizing showLogs with
  | nil => cases h
  | cons first recvs ih =>
    unfold adminThread at h
    split at h
    case h_1 => cases h
    case h_2 => exact ih h
    case h_3 executed hexecuted =>
      rcases List.mem_cons.mp h with heq | hrest
      · cases heq
        exact hexecuted
      · split at hrest
        · cases hrest
        · exact ih hrest

/-- Every `recv` executes a command if and only if none is blank and none but the last one names
`EXIT`. -/
lemma adminThread_eq_self_iff (hshow : showLogs ≠ -1) {recvs : List Bytes}
    (hrecvs : ∀ recvBuf ∈ recvs, recvBuf ≠ [] ∧ 0 ∉ recvBuf) :
    (adminThread showLogs recvs).map Prod.fst = recvs ↔
      (∀ recvBuf ∈ recvs, ¬ AllBlank recvBuf) ∧
      ∀ recvBuf ∈ recvs.dropLast, ¬ NamesExit recvBuf := by
  induction recvs generalizing showLogs with
  | nil => simp [adminThread]
  | cons recvBuf recvs ih =>
    obtain ⟨hne, hzero⟩ := hrecvs recvBuf (by simp)
    have hrest : ∀ recvBuf ∈ recvs, recvBuf ≠ [] ∧ 0 ∉ recvBuf :=
      fun recvBuf hrecv => hrecvs recvBuf (by simp [hrecv])
    unfold adminThread
    rw [CBuffer.takeWhile_eq_self_iff.mpr hzero]
    split
    case h_1 hnone =>
      have hblank := (handleAdminCommand_eq_none_iff.mp hnone).2
      simp [hblank]
    case h_2 hignored => exact absurd (handleAdminCommand_eq_some_none_iff.mp hignored) hne
    case h_3 command hcommand =>
      have hblank : ¬ AllBlank recvBuf := by
        intro hblank
        rw [handleAdminCommand_eq_none_iff.mpr ⟨hne, hblank⟩] at hcommand
        cases hcommand
      have hexit : command.logMode showLogs = -1 ↔ NamesExit recvBuf := by
        rw [AdminCommand.logMode_eq_neg_one_iff hshow, ← handleAdminCommand_eq_exit_iff, hcommand]
        simp
      rw [List.map_cons, List.cons_inj_right, List.forall_mem_cons, and_iff_right hblank]
      by_cases hend : command.logMode showLogs = -1
      · -- `EXIT` ends the session, and nothing may follow
        rw [if_pos hend, List.map_nil]
        cases recvs with
        | nil => simp
        | cons next recvs =>
          rw [List.dropLast_cons_cons, List.forall_mem_cons]
          simp [hexit.mp hend]
      · rw [if_neg hend, ih hend hrest]
        apply and_congr_right
        intro _
        cases recvs with
        | nil => simp
        | cons next recvs =>
          rw [List.dropLast_cons_cons, List.forall_mem_cons, and_iff_right (hexit.not.mp hend)]

end Pcd
