import PcdProject.Core.CText
import PcdProject.Protocol.Messages

/-!
# The administrator's client

The calls of `send` in `event_loop` and `handle_sigint`. `readline` removes the newline, and only
the text of `handle_sigint` has one.
-/

namespace Pcd

open CText

/-- A line from `readline` that is not empty. -/
structure CommandLine where
  text : Bytes
  ne_nil : text ≠ []
  string : ∀ b ∈ text, b ≠ 0 ∧ b ≠ 10

/-- What the administrator does at the terminal. -/
inductive AdminInput where
  | line (line : CommandLine)
  | sigint

/-- The bytes of each `send`. `EXIT` and a signal outside of the log mode end the program. -/
def adminClient (inLogMode : Bool) : List AdminInput → List Bytes
  | []                   => []
  | .line line :: inputs =>
    if strcaseeq line.text (cstr "SHOW_LOGS") then line.text :: adminClient true inputs
    else if strcaseeq line.text (cstr "STOP_LOGS") then line.text :: adminClient false inputs
    else if strcaseeq line.text (cstr "EXIT") then []
    else line.text :: adminClient inLogMode inputs
  | .sigint :: inputs    =>
    if inLogMode then cstr "STOP_LOGS\n" :: adminClient false inputs else []

/-- A line is sent, or it ends the program. -/
lemma adminClient_line (inLogMode : Bool) (line : CommandLine) (inputs : List AdminInput) :
    adminClient inLogMode (.line line :: inputs) = [] ∨
      ∃ mode, adminClient inLogMode (.line line :: inputs)
        = line.text :: adminClient mode inputs := by
  rw [adminClient]
  split_ifs
  · exact .inr ⟨true, rfl⟩
  · exact .inr ⟨false, rfl⟩
  · exact .inl rfl
  · exact .inr ⟨inLogMode, rfl⟩

/-- What is sent is a line or the text of the signal handler. -/
lemma mem_adminClient {inLogMode : Bool} {inputs : List AdminInput} {sent : Bytes}
    (h : sent ∈ adminClient inLogMode inputs) :
    (∃ line : CommandLine, sent = line.text) ∨ sent = cstr "STOP_LOGS\n" := by
  induction inputs generalizing inLogMode with
  | nil => cases h
  | cons input inputs ih =>
    cases input with
    | line line =>
      rcases adminClient_line inLogMode line inputs with hend | ⟨mode, hsend⟩
      · rw [hend] at h
        cases h
      · rw [hsend] at h
        rcases List.mem_cons.mp h with hline | hrest
        · exact .inl ⟨line, hline⟩
        · exact ih hrest
    | sigint =>
      unfold adminClient at h
      split_ifs at h
      · rcases List.mem_cons.mp h with hstop | hrest
        · exact .inr hstop
        · exact ih hrest
      · cases h

lemma zero_notMem_adminClient {inLogMode : Bool} {inputs : List AdminInput} {sent : Bytes}
    (h : sent ∈ adminClient inLogMode inputs) : 0 ∉ sent := by
  rcases mem_adminClient h with ⟨line, rfl⟩ | rfl
  · intro hzero
    exact (line.string 0 hzero).1 rfl
  · decide

end Pcd
