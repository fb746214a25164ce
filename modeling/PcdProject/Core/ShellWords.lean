import PcdProject.Core.Transition

/-!
# Words of a shell command

How a shell splits a command line into words, for the part of its language without expansions: words
between blanks, double quotes, and `&&` between simple commands. Any other use of a character with a
meaning of its own is left out.

The alphabet is a parameter. What is plain may then be a hole that stands for a text, and
`words_flatMap` says that a line is split in the same way before and after its holes are filled.
-/

namespace ShellWords

open Transition

/-- What a character does. A `quotedOnly` character stands for itself between quotes only, and a
`special` one nowhere. -/
inductive CharClass where
  | plain
  | blank
  | quote
  | amp
  | quotedOnly
  | special
  deriving DecidableEq

/-- A simple command, as the list of its words. -/
abbrev Command (α : Type*) := List (List α)

/-- Where the lexer is: the commands and the words in front, and the word that it is in. -/
structure Lexer (α : Type*) where
  commands : List (Command α)
  words : Command α
  word : Option (List α)
  quoted : Bool
  amp : Bool

section Lexer

variable {α β : Type*} (kind : α → CharClass)

namespace Lexer

def init : Lexer α := ⟨[], [], none, false, false⟩

/-- A character that stands for itself. -/
def push (s : Lexer α) (a : α) : Lexer α := { s with word := some (s.word.getD [] ++ [a]) }

/-- The end of the word, if there is one. -/
def endWord (s : Lexer α) : Lexer α := { s with words := s.words ++ s.word.toList, word := none }

/-- The end of the command; a command has a word. -/
def endCommand (s : Lexer α) : Option (Lexer α) :=
  if s.words = [] then none
  else some { s with commands := s.commands ++ [s.words], words := [], amp := false }

/-- Read a character; `none` where the text is left out. -/
def step (s : Lexer α) (a : α) : Option (Lexer α) :=
  match s.quoted, s.amp, kind a with
  | true, _, .quote                                => some { s with quoted := false }
  | true, _, .special                              => none
  | true, _, .plain | true, _, .blank | true, _, .amp | true, _, .quotedOnly => some (s.push a)
  | false, true, .amp                              => s.endCommand
  | false, true, _                                 => none
  | false, false, .plain                           => some (s.push a)
  | false, false, .blank                           => some s.endWord
  | false, false, .quote       => some { s with word := some (s.word.getD []), quoted := true }
  | false, false, .amp                             => some { s.endWord with amp := true }
  | false, false, .quotedOnly | false, false, .special => none

/-- The commands, at the end of the text. -/
def result (s : Lexer α) : Option (List (Command α)) :=
  if s.quoted ∨ s.amp then none
  else (s.endWord.endCommand).map Lexer.commands

end Lexer

/-- The simple commands of a text that are connected by `&&`, split into their words. -/
def words (text : List α) : Option (List (Command α)) :=
  (run (Lexer.step kind) .init text).bind Lexer.result

end Lexer

/-! ### Texts with holes -/

section Fill

variable {α β : Type*} {kind : α → CharClass} {kind' : β → CharClass} {subst : β → List α}

/-- What is plain is filled with plain characters, one at least; other characters stay as they are. -/
def Fills (kind : α → CharClass) (kind' : β → CharClass) (subst : β → List α) (b : β) : Prop :=
  if kind' b = .plain then subst b ≠ [] ∧ ∀ a ∈ subst b, kind a = .plain
  else ∃ a, subst b = [a] ∧ kind a = kind' b

namespace Lexer

/-- The lexer on the filled text. -/
def fill (subst : β → List α) (s : Lexer β) : Lexer α where
  commands := s.commands.map (·.map (·.flatMap subst))
  words := s.words.map (·.flatMap subst)
  word := s.word.map (·.flatMap subst)
  quoted := s.quoted
  amp := s.amp

lemma fill_push (s : Lexer β) (b : β) :
    (s.push b).fill subst
      = { s.fill subst with word := some ((s.fill subst).word.getD [] ++ subst b) } := by
  cases hword : s.word <;> simp [fill, push, hword]

lemma fill_endWord (s : Lexer β) : s.endWord.fill subst = (s.fill subst).endWord := by
  cases hword : s.word <;> simp [fill, endWord, hword]

lemma fill_endCommand (s : Lexer β) :
    (s.fill subst).endCommand = s.endCommand.map (fill subst) := by
  by_cases hwords : s.words = []
  · simp [fill, endCommand, hwords]
  · simp [fill, endCommand, hwords]

/-- Plain characters go into the word. -/
lemma run_plain (s : Lexer α) {as : List α} (has : as ≠ []) (hplain : ∀ a ∈ as, kind a = .plain) :
    run (step kind) s as
      = if s.quoted = false ∧ s.amp = true then none
        else some { s with word := some (s.word.getD [] ++ as) } := by
  induction as generalizing s with
  | nil => exact absurd rfl has
  | cons a as ih =>
    obtain ⟨ha, has'⟩ := List.forall_mem_cons.mp hplain
    have hstep : step kind s a
        = if s.quoted = false ∧ s.amp = true then none else some (s.push a) := by
      cases hquoted : s.quoted <;> cases hamp : s.amp <;> simp [step, hquoted, hamp, ha]
    rw [run_cons, hstep]
    split_ifs with hand
    · rfl
    · rw [Option.bind_some]
      cases as with
      | nil => rfl
      | cons b bs =>
        have hpush : ¬ ((s.push a).quoted = false ∧ (s.push a).amp = true) := hand
        rw [ih (s.push a) (by simp) has', if_neg hpush]
        simp [push]

lemma fill_step (s : Lexer β) {a : α} {b : β} (hkind : kind a = kind' b) (hb : subst b = [a]) :
    step kind (s.fill subst) a = (step kind' s b).map (fill subst) := by
  have hpush : (s.fill subst).push a = (s.push b).fill subst := by
    rw [fill_push, hb]
    rfl
  have hquote : (s.word.map (·.flatMap subst)).getD [] = (s.word.getD []).flatMap subst := by
    cases s.word <;> rfl
  unfold step
  rw [hkind, hpush, ← fill_endWord, fill_endCommand]
  cases hquoted : s.quoted <;> cases hamp : s.amp <;> cases hk : kind' b <;>
    simp [fill, hquoted, hamp, hquote]

/-- A character of the text is a run over what it is filled with. -/
lemma run_fill_step {b : β} (hfill : Fills kind kind' subst b) (s : Lexer β) :
    run (step kind) (s.fill subst) (subst b) = (step kind' s b).map (fill subst) := by
  unfold Fills at hfill
  split_ifs at hfill with hplain
  · obtain ⟨hne, hall⟩ := hfill
    have hstep : step kind' s b
        = if s.quoted = false ∧ s.amp = true then none else some (s.push b) := by
      cases hquoted : s.quoted <;> cases hamp : s.amp <;> simp [step, hquoted, hamp, hplain]
    rw [run_plain _ hne hall, hstep]
    split_ifs with h h' h'
    · rfl
    · exact absurd h h'
    · exact absurd h' h
    · rw [Option.map_some, fill_push]
  · obtain ⟨a, ha, hkind⟩ := hfill
    rw [ha, run_cons, fill_step s hkind ha]
    cases step kind' s b <;> rfl

lemma run_fill {text : List β} (hfill : ∀ b ∈ text, Fills kind kind' subst b) (s : Lexer β) :
    run (step kind) (s.fill subst) (text.flatMap subst)
      = (run (step kind') s text).map (fill subst) := by
  induction text generalizing s with
  | nil => rfl
  | cons b text ih =>
    obtain ⟨hb, htext⟩ := List.forall_mem_cons.mp hfill
    rw [List.flatMap_cons, run_append, run_fill_step hb, run_cons]
    cases step kind' s b with
    | none => rfl
    | some t => exact ih htext t

lemma fill_result (s : Lexer β) :
    (s.fill subst).result = s.result.map (·.map (·.map (·.flatMap subst))) := by
  have hopen : ((s.fill subst).quoted = true ∨ (s.fill subst).amp = true)
      ↔ (s.quoted = true ∨ s.amp = true) := Iff.rfl
  unfold result
  rw [if_congr hopen rfl rfl, ← fill_endWord, fill_endCommand]
  split_ifs
  · rfl
  · rw [Option.map_map, Option.map_map]
    rfl

end Lexer

/-- A text is split in the same way before and after its holes are filled. -/
theorem words_flatMap {text : List β} (hfill : ∀ b ∈ text, Fills kind kind' subst b) :
    words kind (text.flatMap subst)
      = (words kind' text).map (·.map (·.map (·.flatMap subst))) := by
  have hinit : (Lexer.init : Lexer β).fill subst = .init := rfl
  rw [words, words, ← hinit, Lexer.run_fill hfill]
  cases run (Lexer.step kind') .init text with
  | none => rfl
  | some s => exact s.fill_result

end Fill

end ShellWords
