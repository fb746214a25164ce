import Mathlib.Data.List.Flatten
import PcdProject.Client.AdminClient
import PcdProject.Server.AdminCommand

/-!
# The stream between the administrator's client and the server

The bytes that the client sends arrive as one stream, and the calls of `recv` cut it anywhere. The
server has no other sign of the end of a command.
-/

namespace Pcd

/-- `sizeof(recv_buf) - 1` -/
def ADMIN_RECV_SIZE : ℕ := 4095

/-- Results of successive calls of `recv` that deliver the bytes of a stream. -/
structure Segmentation (stream : Bytes) where
  recvs : List Bytes
  flatten_recvs : recvs.flatten = stream
  size_recvs : ∀ recvBuf ∈ recvs, recvBuf ≠ [] ∧ recvBuf.length ≤ ADMIN_RECV_SIZE

/-- Blocks that are left out would be missing from the bytes. -/
lemma eq_of_sublist_of_flatten_eq {xs ys : List Bytes} (h : xs.Sublist ys)
    (hne : ∀ y ∈ ys, y ≠ []) (hflatten : xs.flatten = ys.flatten) : xs = ys := by
  induction h with
  | slnil => rfl
  | @cons xs ys y hsub ih =>
    exfalso
    have hlen : xs.flatten.length ≤ ys.flatten.length := hsub.flatten.length_le
    have hy : 0 < y.length := List.length_pos_iff.mpr (hne y (by simp))
    rw [hflatten, List.flatten_cons, List.length_append] at hlen
    omega
  | @cons_cons xs ys y hsub ih =>
    rw [List.flatten_cons, List.flatten_cons, List.append_cancel_left_eq] at hflatten
    rw [ih (fun y hy => hne y (by simp [hy])) hflatten]

section

variable {stream : Bytes} {lines : List Bytes} (segmentation : Segmentation stream)

/-- If all bytes belong to executed commands, every `recv` was one. -/
lemma recvs_eq_of_executed (hstream : lines.flatten = stream)
    (h : (adminThread 0 segmentation.recvs).map Prod.fst = lines) :
    segmentation.recvs = lines := by
  have hsublist := adminThread_sublist 0 segmentation.recvs
  rw [h] at hsublist
  symm
  apply eq_of_sublist_of_flatten_eq hsublist
  · intro recvBuf hrecv
    exact (segmentation.size_recvs recvBuf hrecv).1
  · rw [hstream, segmentation.flatten_recvs]

lemma executed_eq_iff (hstream : lines.flatten = stream) (hzero : ∀ line ∈ lines, 0 ∉ line) :
    (adminThread 0 segmentation.recvs).map Prod.fst = lines ↔
      segmentation.recvs = lines ∧ (∀ line ∈ lines, ¬ AllBlank line) ∧
      ∀ line ∈ lines.dropLast, ¬ NamesExit line := by
  constructor
  · intro h
    have heq := recvs_eq_of_executed segmentation hstream h
    subst heq
    refine ⟨rfl, (adminThread_eq_self_iff (by decide) ?_).mp h⟩
    intro recvBuf hrecv
    exact ⟨(segmentation.size_recvs recvBuf hrecv).1, hzero recvBuf hrecv⟩
  · rintro ⟨heq, hlines⟩
    subst heq
    refine (adminThread_eq_self_iff (by decide) ?_).mpr hlines
    intro recvBuf hrecv
    exact ⟨(segmentation.size_recvs recvBuf hrecv).1, hzero recvBuf hrecv⟩

/-- The executed commands are then those of the lines. -/
lemma commands_of_executed (hzero : ∀ line ∈ lines, 0 ∉ line)
    (h : (adminThread 0 segmentation.recvs).map Prod.fst = lines) :
    (adminThread 0 segmentation.recvs).map (fun executed => some (some executed.2))
      = lines.map handleAdminCommand := by
  rw [← h, List.map_map]
  apply List.map_congr_left
  rintro ⟨line, command⟩ hexecuted
  have hline : line ∈ lines := by
    rw [← h]
    exact List.mem_map_of_mem hexecuted
  have hcommand := handleAdminCommand_of_mem_adminThread hexecuted
  rw [CBuffer.takeWhile_eq_self_iff.mpr (hzero line hline)] at hcommand
  exact hcommand.symm

end

/-- The server executes the lines that were sent, in order and each once, if and only if each `recv`
returns one of these lines, none of them is blank, and none but the last one names `EXIT`. -/
theorem executed_lines_iff (inputs : List AdminInput)
    (segmentation : Segmentation (adminClient false inputs).flatten) :
    (adminThread 0 segmentation.recvs).map Prod.fst = adminClient false inputs ↔
      segmentation.recvs = adminClient false inputs ∧
      (∀ line ∈ adminClient false inputs, ¬ AllBlank line) ∧
      ∀ line ∈ (adminClient false inputs).dropLast, ¬ NamesExit line := by
  apply executed_eq_iff segmentation rfl
  intro line hline
  exact zero_notMem_adminClient hline

/-- Two lines in one `recv` are executed as one command. -/
theorem not_executed_lines_merged :
    ¬ ∀ (inputs : List AdminInput)
        (segmentation : Segmentation (adminClient false inputs).flatten),
      (adminThread 0 segmentation.recvs).map Prod.fst = adminClient false inputs := by
  intro h
  let help : CommandLine := ⟨cstr "HELP", by decide, by simp [cstr]⟩
  let segmentation : Segmentation (adminClient false [.line help, .line help]).flatten :=
    ⟨[cstr "HELPHELP"], by decide, by decide⟩
  have hexecuted := h _ segmentation
  exact absurd hexecuted (by decide)

end Pcd
