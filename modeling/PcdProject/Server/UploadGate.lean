import PcdProject.Core.Census
import PcdProject.Core.Transition
import PcdProject.Server.State

/-!
# The gate of the uploads

What the admission of uploads is for, without the jobs and the signals: each of a number of workers
is busy or not, a worker may become busy while uploads are queued and fewer than `limit` are active,
and the administrator moves the limit.
-/

namespace Pcd

open Transition

structure UploadGate where
  busy : List Bool
  queued : ℕ
  active : ℤ
  limit : ℤ

inductive GateAction where
  | enqueue
  | pick (w : ℕ)
  | finish (w : ℕ)
  | setLimit (n : ℤ)

namespace UploadGate

def init : UploadGate where
  busy := List.replicate MAX_UPLOADS false
  queued := 0
  active := 0
  limit := MAX_UPLOADS

def step (g : UploadGate) : GateAction → Option UploadGate
  | .enqueue    => some { g with queued := g.queued + 1 }
  | .pick w     =>
    if g.busy[w]? = some false ∧ 0 < g.queued ∧ g.active < g.limit then
      some { g with
        busy := g.busy.set w true
        queued := g.queued - 1
        active := g.active + 1 }
    else none
  | .finish w   =>
    if g.busy[w]? = some true then
      some { g with
        busy := g.busy.set w false
        active := g.active - 1 }
    else none
  | .setLimit n => some (if n < 0 ∨ n > MAX_UPLOADS then g else { g with limit := n })

/-- The counter is the number of busy workers, and the limit is in its range. -/
structure Inv (g : UploadGate) : Prop where
  counter : g.active = g.busy.countP id
  length  : g.busy.length = MAX_UPLOADS
  limit   : 0 ≤ g.limit ∧ g.limit ≤ MAX_UPLOADS

variable {g g' : UploadGate} {a : GateAction}

lemma Inv.init : Inv UploadGate.init where
  counter := rfl
  length := List.length_replicate
  limit := ⟨by simp [UploadGate.init], le_rfl⟩

lemma Inv.step (hg : Inv g) (h : g.step a = some g') : Inv g' := by
  obtain ⟨hcounter, hlength, hlimit⟩ := hg
  cases a with
  | enqueue =>
    cases h
    exact ⟨hcounter, hlength, hlimit⟩
  | pick w =>
    simp only [UploadGate.step] at h
    split_ifs at h with hpick
    cases h
    have hset := Census.countP_set id true hpick.1
    refine ⟨?_, by rw [List.length_set, hlength], hlimit⟩
    simp only [id, Bool.toNat_true, Bool.toNat_false] at hset
    dsimp only
    omega
  | finish w =>
    simp only [UploadGate.step] at h
    split_ifs at h with hbusy
    cases h
    have hset := Census.countP_set id false hbusy
    refine ⟨?_, by rw [List.length_set, hlength], hlimit⟩
    simp only [id, Bool.toNat_true, Bool.toNat_false] at hset
    dsimp only
    omega
  | setLimit n =>
    simp only [UploadGate.step, Option.some.injEq] at h
    split_ifs at h with hn
    · exact h ▸ ⟨hcounter, hlength, hlimit⟩
    · subst h
      exact ⟨hcounter, hlength, by dsimp only; omega⟩

lemma Inv.run {as : List GateAction} (h : run UploadGate.step .init as = some g) : Inv g :=
  run_invariant (fun _ _ _ hg h => hg.step h) Inv.init h

lemma Inv.active_nonneg (hg : Inv g) : 0 ≤ g.active := by
  rw [hg.counter]
  exact Int.natCast_nonneg _

lemma Inv.active_le (hg : Inv g) : g.active ≤ MAX_UPLOADS := by
  rw [hg.counter, ← hg.length]
  exact Int.ofNat_le.mpr List.countP_le_length

/-- A step that does not lower the limit keeps the counter below it. -/
lemma active_le_limit_step (hle : g.active ≤ g.limit) (hkeep : g.limit ≤ g'.limit)
    (h : g.step a = some g') : g'.active ≤ g'.limit := by
  cases a with
  | enqueue =>
    cases h
    exact hle
  | pick w =>
    simp only [step] at h
    split_ifs at h with hpick
    cases h
    exact hpick.2.2
  | finish w =>
    simp only [step] at h
    split_ifs at h
    cases h
    dsimp only
    omega
  | setLimit n =>
    simp only [step, Option.some.injEq] at h
    split_ifs at h
    · exact h ▸ hle
    · subst h
      exact hle.trans hkeep

end UploadGate

end Pcd
