import PcdProject.Network.AdminSession
import PcdProject.Server.AdminEffects

/-!
# The log mode on both sides

The administrator's client keeps a log mode of its own. It compares the whole line with the names
of the two commands, where the server trims the line and takes its first word.
-/

namespace Pcd

open CText Transition

/-- A line from `readline` that one `recv` returns as a whole. -/
structure TypedLine where
  text : Bytes
  string : ∀ b ∈ text, b ≠ 0 ∧ b ≠ 10
  fits : text.length ≤ ADMIN_RECV_SIZE

/-- `in_log_mode` after a line; `none` if the line ends the client. -/
def clientLogMode (inLogMode : Bool) (text : Bytes) : Option Bool :=
  if strcaseeq text (cstr "SHOW_LOGS") then some true
  else if strcaseeq text (cstr "STOP_LOGS") then some false
  else if strcaseeq text (cstr "EXIT") then none
  else some inLogMode

/-- `in_log_mode` and the server's `show_logs`, which is `none` after the server has crashed. -/
structure LogSession where
  inLogMode : Bool
  showLogs : Option ℤ
  deriving DecidableEq

namespace LogSession

def init : LogSession := ⟨false, some 0⟩

/-- A line is typed, sent and handled; `none` if it ends the client or if the server is gone. The
client sends nothing for an empty line. -/
def step (s : LogSession) (line : TypedLine) : Option LogSession :=
  match s.showLogs with
  | none          => none
  | some showLogs =>
    if showLogs = -1 then none
    else (clientLogMode s.inLogMode line.text).map fun inLogMode =>
      { inLogMode := inLogMode
        showLogs :=
          if line.text = [] then some showLogs
          else (handleAdminCommand (line.text.takeWhile (· ≠ 0))).map fun command =>
            (command.map (·.logMode showLogs)).getD showLogs }

/-- The client is in log mode if and only if the server is. -/
def Agree (s : LogSession) : Prop := ∃ showLogs, s.showLogs = some showLogs ∧
  (s.inLogMode = true ↔ showLogs = 1)

end LogSession

/-- The word by which the server names the command of a line. -/
def commandWord (line : Bytes) : Bytes := firstWord ((line.rdropWhile isspace).dropWhile isBlank)

/-- The line is not blank; and if its first word, but not the whole line, is a command that changes
the mode, then it changes to the mode the client is in. -/
structure LogSession.InStep (s : LogSession) (line : TypedLine) : Prop where
  notBlank : line.text ≠ [] → ¬ AllBlank line.text
  showLogs : strcaseeq (commandWord line.text) (cstr "SHOW_LOGS") →
    strcaseeq line.text (cstr "SHOW_LOGS") ∨ s.inLogMode = true
  stopLogs : strcaseeq (commandWord line.text) (cstr "STOP_LOGS") →
    strcaseeq line.text (cstr "STOP_LOGS") ∨ s.inLogMode = false
  exit     : NamesExit line.text → s.inLogMode = false

/-- The client of the session is `adminClient`. -/
lemma adminClient_eq (inLogMode : Bool) (line : CommandLine) (inputs : List AdminInput) :
    adminClient inLogMode (.line line :: inputs) =
      (clientLogMode inLogMode line.text).elim []
        fun inLogMode => line.text :: adminClient inLogMode inputs := by
  rw [adminClient, clientLogMode]
  split_ifs <;> rfl

/-! ### The command of a line -/

variable {input : Bytes} {command : AdminCommand} {arg : Option Bytes} {word : Bytes}

/-- The command is the one that the first word names, an empty word naming none. -/
lemma eq_ofTokens_commandWord (h : handleAdminCommand input = some (some command)) :
    ∃ arg, command = .ofTokens (commandWord input) arg := by
  obtain ⟨token, rest, htoken, rfl⟩ := exists_token_of_handleAdminCommand h
  by_cases hspace : ∀ b ∈ input, isspace b
  · have hword : commandWord input = [] := by
      rw [commandWord, List.rdropWhile_eq_nil_iff.mpr hspace]
      rfl
    rw [trimWhitespace_of_isspace hspace] at htoken
    obtain ⟨b, more, rfl⟩ := List.exists_cons_of_ne_nil (token_ne_nil htoken)
    have hb := hspace b (mem_of_mem_token htoken List.mem_cons_self)
    refine ⟨none, ?_⟩
    rw [hword, AdminCommand.ofTokens_eq_unknown_iff.mpr
      (not_isCommandName_of_mem List.mem_cons_self hb)]
    rfl
  · push Not at hspace
    obtain ⟨b, hb, hnot⟩ := hspace
    refine ⟨_, congrArg (AdminCommand.ofTokens · _) ?_⟩
    rw [token_of_strtok htoken, trimWhitespace_of_mem hb hnot]
    rfl

/-- The log mode that a command leads to, by its name. -/
lemma logMode_ofTokens (showLogs : ℤ) :
    (AdminCommand.ofTokens word arg).logMode showLogs =
      if strcaseeq word (cstr "SHOW_LOGS") then 1
      else if strcaseeq word (cstr "STOP_LOGS") then 0
      else if strcaseeq word (cstr "EXIT") then -1
      else showLogs := by
  split_ifs with hshow hstop hexit
  · have hword : word.map tolower = (cstr "SHOW_LOGS").map tolower := of_decide_eq_true hshow
    simp only [AdminCommand.ofTokens, strcaseeq, hword]
    rfl
  · have hword : word.map tolower = (cstr "STOP_LOGS").map tolower := of_decide_eq_true hstop
    simp only [AdminCommand.ofTokens, strcaseeq, hword]
    rfl
  · have hword : word.map tolower = (cstr "EXIT").map tolower := of_decide_eq_true hexit
    simp only [AdminCommand.ofTokens, strcaseeq, hword]
    rfl
  · unfold AdminCommand.ofTokens
    split_ifs <;> rfl

lemma not_strcaseeq_of_strcaseeq {name other : Bytes} (hne : name.map tolower ≠ other.map tolower)
    (hname : strcaseeq word name) : strcaseeq word other = false := by
  have hlower : word.map tolower = name.map tolower := of_decide_eq_true hname
  exact decide_eq_false fun hother => hne (hlower.symm.trans hother)

/-- A line that is a name as a whole is its own first word. -/
lemma commandWord_of_strcaseeq {name : Bytes} (hname : (name.map tolower).all (! isspace ·) = true)
    (h : strcaseeq input name) : commandWord input = input := by
  have hlower : input.map tolower = name.map tolower := of_decide_eq_true h
  have hspace : ∀ b ∈ input, ¬ isspace b := by
    intro b hb hspace
    have hmem : b ∈ name.map tolower := by
      rw [← hlower, ← tolower_of_isspace hspace]
      exact List.mem_map_of_mem hb
    have hnot := List.all_eq_true.mp hname b hmem
    rw [hspace] at hnot
    cases hnot
  have hblank : ∀ b ∈ input, ¬ isBlank b := fun b hb hblank =>
    hspace b hb (isspace_of_isBlank hblank)
  have htrim : input.rdropWhile isspace = input :=
    List.rdropWhile_eq_self_iff.mpr fun hne => hspace _ (List.getLast_mem hne)
  have hdrop : input.dropWhile isBlank = input := by
    cases input with
    | nil => rfl
    | cons b more => exact List.dropWhile_cons_of_neg (hblank b List.mem_cons_self)
  rw [commandWord, htrim, hdrop, firstWord, List.takeWhile_eq_self_iff]
  intro b hb
  simp [hblank b hb]

/-! ### One line -/

namespace LogSession

variable {s t : LogSession} {line : TypedLine} {showLogs : ℤ}

/-- What a line that is handled does on both sides. -/
lemma exists_of_step (h : s.step line = some t) (hne : line.text ≠ []) :
    ∃ showLogs inLogMode, s.showLogs = some showLogs ∧ showLogs ≠ -1 ∧
      clientLogMode s.inLogMode line.text = some inLogMode ∧
      t = ⟨inLogMode, (handleAdminCommand line.text).map fun command =>
        (command.map (·.logMode showLogs)).getD showLogs⟩ := by
  have hstring : line.text.takeWhile (· ≠ 0) = line.text :=
    CBuffer.takeWhile_eq_self_iff.mpr fun hzero => (line.string 0 hzero).1 rfl
  unfold step at h
  split at h
  · cases h
  · rename_i showLogs hshow
    split_ifs at h with hclosed
    obtain ⟨inLogMode, hmode, rfl⟩ := Option.map_eq_some_iff.mp h
    rw [hstring]
    exact ⟨showLogs, inLogMode, hshow, hclosed, hmode, rfl⟩

lemma eq_of_step_nil (h : s.step line = some t) (hnil : line.text = []) : t = s := by
  unfold step at h
  split at h
  · cases h
  · rename_i showLogs hshow
    split_ifs at h with hclosed
    rw [hnil] at h
    cases h
    cases s
    simp_all

/-- A line that is no name of a mode as a whole leaves the client in its mode, and is in step
exactly if it leaves the server there too. -/
lemma inStep_iff_of_unchanged (hblank : ¬ AllBlank line.text)
    (hshow : ¬ strcaseeq line.text (cstr "SHOW_LOGS"))
    (hstop : ¬ strcaseeq line.text (cstr "STOP_LOGS")) (hs : s.inLogMode = true ↔ showLogs = 1)
    (arg : Option Bytes) :
    s.InStep line ↔ (s.inLogMode = true ↔
      (AdminCommand.ofTokens (commandWord line.text) arg).logMode showLogs = 1) := by
  have hexit : NamesExit line.text ↔ strcaseeq (commandWord line.text) (cstr "EXIT") := Iff.rfl
  rw [logMode_ofTokens]
  split_ifs with hword hword' hword''
  · have hstop' : strcaseeq (commandWord line.text) (cstr "STOP_LOGS") = false :=
      not_strcaseeq_of_strcaseeq (by decide) hword
    have hexit' : strcaseeq (commandWord line.text) (cstr "EXIT") = false :=
      not_strcaseeq_of_strcaseeq (by decide) hword
    constructor
    · intro h
      simp [(h.showLogs hword).resolve_left hshow]
    · intro h
      exact ⟨fun _ => hblank, fun _ => .inr (h.mpr rfl), by simp [hstop'], by simp [hexit, hexit']⟩
  · have hexit' : strcaseeq (commandWord line.text) (cstr "EXIT") = false :=
      not_strcaseeq_of_strcaseeq (by decide) hword'
    constructor
    · intro h
      simp [(h.stopLogs hword').resolve_left hstop]
    · intro h
      exact ⟨fun _ => hblank, by simp [hword], fun _ => .inr (by simpa using h),
        by simp [hexit, hexit']⟩
  · constructor
    · intro h
      simp [h.exit hword'']
    · intro h
      exact ⟨fun _ => hblank, by simp [hword], by simp [hword'], fun _ => by simpa using h⟩
  · exact iff_of_true
      ⟨fun _ => hblank, by simp [hword], by simp [hword'], by simp [hexit, hword'']⟩ hs

/-- A line that is a name of a mode as a whole is in step. -/
lemma inStep_of_name {name : Bytes} (hblank : ¬ AllBlank line.text)
    (hname : strcaseeq line.text name)
    (hspace : (name.map tolower).all (! isspace ·) = true)
    (hexit : name.map tolower ≠ (cstr "EXIT").map tolower) : s.InStep line := by
  have hword := commandWord_of_strcaseeq hspace hname
  have hexit' := not_strcaseeq_of_strcaseeq hexit hname
  have hexit'' : NamesExit line.text ↔ strcaseeq (commandWord line.text) (cstr "EXIT") := Iff.rfl
  refine ⟨fun _ => hblank, ?_, ?_, ?_⟩
  · rw [hword]
    exact .inl
  · rw [hword]
    exact .inl
  · rw [hexit'', hword, hexit']
    rintro ⟨⟩

lemma inStep_of_nil (hnil : line.text = []) : s.InStep line := by
  refine ⟨fun hne => absurd hnil hne, ?_, ?_, ?_⟩ <;>
  · rw [hnil]
    rintro ⟨⟩

/-- From modes that agree, the modes agree after a line exactly if the line is in step. -/
lemma agree_step_iff (hs : s.Agree) (h : s.step line = some t) : t.Agree ↔ s.InStep line := by
  by_cases hnil : line.text = []
  · rw [eq_of_step_nil h hnil]
    exact iff_of_true hs (inStep_of_nil hnil)
  obtain ⟨showLogs, inLogMode, hshow, -, hmode, rfl⟩ := exists_of_step h hnil
  obtain ⟨showLogs', hshow', hagree⟩ := hs
  obtain rfl : showLogs = showLogs' := Option.some.inj (hshow.symm.trans hshow')
  cases hcommand : handleAdminCommand line.text with
  | none =>
    have hblank := (handleAdminCommand_eq_none_iff.mp hcommand).2
    refine iff_of_false ?_ fun h => h.notBlank hnil hblank
    rintro ⟨_, ⟨⟩, _⟩
  | some found =>
    cases found with
    | none => exact absurd (handleAdminCommand_eq_some_none_iff.mp hcommand) hnil
    | some command =>
      have hblank : ¬ AllBlank line.text := by
        intro hblank
        rw [handleAdminCommand_eq_none_iff.mpr ⟨hnil, hblank⟩] at hcommand
        cases hcommand
      obtain ⟨arg, rfl⟩ := eq_ofTokens_commandWord hcommand
      have hafter : LogSession.Agree ⟨inLogMode,
          some ((AdminCommand.ofTokens (commandWord line.text) arg).logMode showLogs)⟩ ↔
          (inLogMode = true ↔
            (AdminCommand.ofTokens (commandWord line.text) arg).logMode showLogs = 1) := by
        simp [Agree]
      refine hafter.trans ?_
      unfold clientLogMode at hmode
      split_ifs at hmode with hshowName hstopName hexitName
      · cases hmode
        rw [logMode_ofTokens, commandWord_of_strcaseeq (by decide) hshowName, if_pos hshowName]
        exact iff_of_true (by simp)
          (inStep_of_name hblank hshowName (by decide) (by decide))
      · cases hmode
        rw [logMode_ofTokens, commandWord_of_strcaseeq (by decide) hstopName, if_neg hshowName,
          if_pos hstopName]
        exact iff_of_true (by simp)
          (inStep_of_name hblank hstopName (by decide) (by decide))
      · cases hmode
        exact (inStep_iff_of_unchanged hblank hshowName hstopName hagree arg).symm

end LogSession

/-! ### Main result -/

/-- The two log modes agree after every line exactly if every line is in step. -/
theorem logModes_agree_iff {lines : List TypedLine} {s : LogSession}
    (h : run LogSession.step .init lines = some s) :
    Always LogSession.step LogSession.Agree .init lines ↔
      Along LogSession.step LogSession.InStep .init lines := by
  refine run_induction (P := fun lines _ =>
    Always LogSession.step LogSession.Agree .init lines ↔
      Along LogSession.step LogSession.InStep .init lines) ?_ ?_ h
  · exact iff_of_true (always_nil.mpr ⟨0, rfl, by decide⟩) along_nil
  · intro lines line t u hrun hstep ih
    rw [always_concat_of_run (run_concat_eq_some.mpr ⟨t, hrun, hstep⟩),
      along_concat_of_run hrun, ← ih]
    apply and_congr_right
    intro halways
    exact LogSession.agree_step_iff (halways lines t (List.prefix_refl _) hrun) hstep

/-- A line of ASCII text. -/
def TypedLine.ofString (text : String) (h : ∀ b ∈ cstr text, b ≠ 0 ∧ b ≠ 10)
    (hfits : (cstr text).length ≤ ADMIN_RECV_SIZE) : TypedLine :=
  ⟨cstr text, h, hfits⟩

/-- The logs are shown, and stopped again by a line in lower case. -/
theorem logModes_agree_stop :
    Always LogSession.step LogSession.Agree .init
        [.ofString "SHOW_LOGS" (by simp [cstr]) (by decide),
          .ofString "stop_logs" (by simp [cstr]) (by decide)] ↔
      Along LogSession.step LogSession.InStep .init
        [.ofString "SHOW_LOGS" (by simp [cstr]) (by decide),
          .ofString "stop_logs" (by simp [cstr]) (by decide)] :=
  logModes_agree_iff (s := ⟨false, some 0⟩) (by decide)

/-- A blank behind `SHOW_LOGS` leaves the client out of the log mode. -/
theorem not_logModes_agree_blank :
    ¬ ∀ lines s, run LogSession.step .init lines = some s →
      Always LogSession.step LogSession.Agree .init lines := by
  intro h
  have hrun : run LogSession.step .init [.ofString "SHOW_LOGS " (by simp [cstr]) (by decide)]
      = some ⟨false, some 1⟩ := by decide
  obtain ⟨showLogs, hshow, hagree⟩ := h _ _ hrun _ _ (List.prefix_refl _) hrun
  cases hshow
  exact absurd (hagree.mpr rfl) Bool.false_ne_true

end Pcd
