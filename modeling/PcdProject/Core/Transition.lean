import Mathlib.Data.List.Infix

/-!
# Runs of partial transition functions

A system is given by a function `step : σ → α → Option σ`: in state `s` the action `a` is either
not enabled, or leads to exactly one state. Whatever the environment decides (which thread moves,
what a system call returns) is part of the action, so a list of actions is one interleaving.

`Along` and `Always` speak about the steps and the states of one run, `trace` collects what an
observer sees of it, and `run_induction` is the induction over runs that every invariant uses.
-/

namespace Transition

variable {σ τ α β ε : Type*}

/-- Perform the actions in order; `none` as soon as one of them is not enabled. -/
def run (step : σ → α → Option σ) : σ → List α → Option σ
  | s, []      => some s
  | s, a :: as => (step s a).bind fun t => run step t as

/-- Every action of the run meets the condition `C` in the state in which it is performed. -/
def Along (step : σ → α → Option σ) (C : σ → α → Prop) (s : σ) (as : List α) : Prop :=
  ∀ pre a t, pre ++ [a] <+: as → run step s pre = some t → C t a

/-- Every state of the run, the first and the last included, satisfies `P`. -/
def Always (step : σ → α → Option σ) (P : σ → Prop) (s : σ) (as : List α) : Prop :=
  ∀ pre t, pre <+: as → run step s pre = some t → P t

/-- The events that the observer `event` sees along the run. -/
def trace (step : σ → α → Option σ) (event : σ → α → List ε) : σ → List α → List ε
  | _, []      => []
  | s, a :: as => event s a ++ (step s a).elim [] fun t => trace step event t as

section Run

variable (step : σ → α → Option σ)

@[simp] lemma run_nil (s : σ) : run step s [] = some s := rfl

@[simp] lemma run_cons (s : σ) (a : α) (as : List α) :
    run step s (a :: as) = (step s a).bind fun t => run step t as := rfl

lemma run_append (s : σ) (as bs : List α) :
    run step s (as ++ bs) = (run step s as).bind fun t => run step t bs := by
  induction as generalizing s with
  | nil => rfl
  | cons a as ih =>
    simp only [List.cons_append, run_cons]
    cases step s a with
    | none => rfl
    | some t => exact ih t

variable {step}

lemma run_concat_eq_some {s t : σ} {as : List α} {a : α} :
    run step s (as ++ [a]) = some t ↔ ∃ u, run step s as = some u ∧ step u a = some t := by
  simp [run_append, Option.bind_eq_some_iff]

/-- Every prefix of a run is a run. -/
lemma run_prefix {s t : σ} {pre as : List α} (hpre : pre <+: as) (h : run step s as = some t) :
    ∃ u, run step s pre = some u := by
  obtain ⟨suf, rfl⟩ := hpre
  rw [run_append, Option.bind_eq_some_iff] at h
  obtain ⟨u, hu, -⟩ := h
  exact ⟨u, hu⟩

/-- Induction over runs from a fixed state, the last action split off. -/
lemma run_induction {s : σ} {P : List α → σ → Prop} (nil : P [] s)
    (snoc : ∀ as a t u, run step s as = some t → step t a = some u → P as t → P (as ++ [a]) u)
    {as : List α} {t : σ} (h : run step s as = some t) : P as t := by
  induction as using List.reverseRecOn generalizing t with
  | nil =>
    cases h
    exact nil
  | append_singleton as a ih =>
    obtain ⟨u, hu, ha⟩ := run_concat_eq_some.mp h
    exact snoc as a u t hu ha (ih hu)

/-- A predicate that every step preserves holds after a run if it held before. -/
lemma run_invariant {I : σ → Prop} (hstep : ∀ s a t, I s → step s a = some t → I t)
    {s t : σ} {as : List α} (hs : I s) (h : run step s as = some t) : I t :=
  run_induction (P := fun _ t => I t) hs (fun _ _ _ _ _ ha ih => hstep _ _ _ ih ha) h

/-- If a step adds to a potential only when the action is of a certain kind, and at most `k` then, a
run adds at most `k` for each action of this kind. -/
lemma run_potential {Φ : σ → ℕ} {p : α → Bool} {k : ℕ}
    (hstep : ∀ s a t, step s a = some t → Φ t ≤ Φ s + if p a then k else 0)
    {s t : σ} {as : List α} (h : run step s as = some t) : Φ t ≤ Φ s + k * as.countP p := by
  refine run_induction (P := fun as t => Φ t ≤ Φ s + k * as.countP p) (by simp) ?_ h
  intro as a t u _ ha ih
  have hle := hstep t a u ha
  rw [List.countP_append, List.countP_singleton, Nat.mul_add]
  split_ifs at hle ⊢ <;> omega

end Run

section Conditions

variable {step : σ → α → Option σ} {C : σ → α → Prop} {P : σ → Prop} {s t : σ} {as : List α}

lemma along_nil : Along step C s [] := by
  intro pre a t hpre
  simp at hpre

lemma along_concat {a : α} :
    Along step C s (as ++ [a]) ↔ Along step C s as ∧ ∀ t, run step s as = some t → C t a := by
  constructor
  · intro h
    refine ⟨fun pre b t hpre => h pre b t (hpre.trans (List.prefix_append _ _)), ?_⟩
    intro t ht
    exact h as a t (List.prefix_refl _) ht
  · rintro ⟨h, ha⟩ pre b t hpre ht
    rcases List.prefix_concat_iff.mp hpre with heq | hpre
    · obtain ⟨rfl, hb⟩ := List.append_inj' heq rfl
      cases hb
      exact ha t ht
    · exact h pre b t hpre ht

lemma along_concat_of_run {a : α} (h : run step s as = some t) :
    Along step C s (as ++ [a]) ↔ Along step C s as ∧ C t a := by
  rw [along_concat]
  simp [h]

lemma along_cons {a : α} :
    Along step C s (a :: as) ↔ C s a ∧ ∀ t, step s a = some t → Along step C t as := by
  constructor
  · intro h
    refine ⟨h [] a s ⟨as, rfl⟩ rfl, ?_⟩
    intro t ht pre b u hpre hu
    exact h (a :: pre) b u (List.cons_prefix_cons.mpr ⟨rfl, hpre⟩) (by simpa [ht] using hu)
  · rintro ⟨ha, h⟩ pre b u hpre hu
    cases pre with
    | nil =>
      obtain ⟨rfl, -⟩ := List.cons_prefix_cons.mp hpre
      cases hu
      exact ha
    | cons a' pre =>
      obtain ⟨rfl, hpre'⟩ := List.cons_prefix_cons.mp hpre
      obtain ⟨t, ht, hu⟩ := Option.bind_eq_some_iff.mp hu
      exact h t ht pre b u hpre' hu

/-- Check the condition at one action after the other. -/
def checkAlong (step : σ → α → Option σ) (C : σ → α → Prop) [∀ s a, Decidable (C s a)] :
    σ → List α → Bool
  | _, []      => true
  | s, a :: as => decide (C s a) && (step s a).elim true fun t => checkAlong step C t as

lemma checkAlong_iff [∀ s a, Decidable (C s a)] : checkAlong step C s as = true ↔ Along step C s as := by
  induction as generalizing s with
  | nil => simp [checkAlong, along_nil]
  | cons a as ih => cases h : step s a <;> simp [checkAlong, along_cons, h, ih]

instance [∀ s a, Decidable (C s a)] : Decidable (Along step C s as) :=
  decidable_of_iff _ checkAlong_iff

lemma Along.of_prefix {pre : List α} (h : Along step C s as) (hpre : pre <+: as) :
    Along step C s pre :=
  fun pre' a t hpre' ht => h pre' a t (hpre'.trans hpre) ht

/-- An invariant of the steps that meet `C` holds after every run that meets `C`. -/
lemma along_invariant {I : σ → Prop} (hstep : ∀ s a t, I s → C s a → step s a = some t → I t)
    (hs : I s) (hC : Along step C s as) (h : run step s as = some t) : I t := by
  have key : Along step C s as → I t :=
    run_induction (P := fun as t => Along step C s as → I t) (fun _ => hs)
      (fun as a t u hrun ha ih hC => by
        obtain ⟨hC, hCa⟩ := along_concat.mp hC
        exact hstep t a u (ih hC) (hCa t hrun) ha) h
  exact key hC

/-- An invariant of the steps that meet `C` holds in every state of a run that meets `C`. -/
lemma always_of_along {I : σ → Prop} (hstep : ∀ s a t, I s → C s a → step s a = some t → I t)
    (hI : ∀ s, I s → P s) (hs : I s) (hC : Along step C s as) : Always step P s as :=
  fun _ t hpre ht => hI t (along_invariant hstep hs (hC.of_prefix hpre) ht)

lemma always_nil : Always step P s [] ↔ P s := by
  constructor
  · intro h
    exact h [] s (List.prefix_refl _) rfl
  · intro h pre t hpre ht
    rw [List.prefix_nil.mp hpre] at ht
    cases ht
    exact h

lemma always_concat_of_run {a : α} (h : run step s (as ++ [a]) = some t) :
    Always step P s (as ++ [a]) ↔ Always step P s as ∧ P t := by
  constructor
  · intro hP
    exact ⟨fun pre u hpre hu => hP pre u (hpre.trans (List.prefix_append _ _)) hu,
      hP _ t (List.prefix_refl _) h⟩
  · rintro ⟨hP, ht⟩ pre u hpre hu
    rcases List.prefix_concat_iff.mp hpre with rfl | hpre
    · rw [h] at hu
      cases hu
      exact ht
    · exact hP pre u hpre hu

end Conditions

section Trace

variable {step : σ → α → Option σ} {event : σ → α → List ε}

@[simp] lemma trace_nil (s : σ) : trace step event s [] = [] := rfl

lemma trace_cons {s t : σ} {a : α} (as : List α) (h : step s a = some t) :
    trace step event s (a :: as) = event s a ++ trace step event t as := by
  simp [trace, h]

lemma trace_concat {s t : σ} {as : List α} (a : α) (h : run step s as = some t) :
    trace step event s (as ++ [a]) = trace step event s as ++ event t a := by
  induction as generalizing s with
  | nil =>
    cases h
    cases hstep : step t a <;> simp [trace, hstep]
  | cons b as ih =>
    obtain ⟨u, hu, ht⟩ := Option.bind_eq_some_iff.mp h
    rw [List.cons_append, trace_cons _ hu, trace_cons _ hu, ih ht, List.append_assoc]

lemma trace_append {s t : σ} {as : List α} (bs : List α) (h : run step s as = some t) :
    trace step event s (as ++ bs) = trace step event s as ++ trace step event t bs := by
  induction as generalizing s with
  | nil =>
    cases h
    rfl
  | cons a as ih =>
    obtain ⟨u, hu, ht⟩ := Option.bind_eq_some_iff.mp h
    rw [List.cons_append, trace_cons _ hu, trace_cons _ hu, ih ht, List.append_assoc]

lemma map_trace {δ : Type*} (f : ε → δ) (s : σ) (as : List α) :
    (trace step event s as).map f = trace step (fun s a => (event s a).map f) s as := by
  induction as generalizing s with
  | nil => rfl
  | cons a as ih =>
    cases hstep : step s a with
    | none => simp [trace, hstep]
    | some t => rw [trace_cons _ hstep, trace_cons _ hstep, List.map_append, ih]

/-- A relation between the state and the events so far that every step that meets `C` extends holds
after every run along `C`. -/
lemma along_trace_invariant {I : σ → List ε → Prop} {C : σ → α → Prop} {s t : σ} {as : List α}
    (hs : I s []) (hstep : ∀ s a t es, I s es → C s a → step s a = some t → I t (es ++ event s a))
    (hC : Along step C s as) (h : run step s as = some t) : I t (trace step event s as) := by
  have key : Along step C s as → I t (trace step event s as) :=
    run_induction (P := fun as t => Along step C s as → I t (trace step event s as)) (fun _ => hs)
      (fun as a t u hrun ha ih hC => by
        obtain ⟨hC, hCa⟩ := along_concat.mp hC
        rw [trace_concat a hrun]
        exact hstep t a u _ (ih hC) (hCa t hrun) ha) h
  exact key hC

/-- A map of states under which every step from a state that satisfies the invariant `I` is a run of
a second system maps runs to runs. -/
lemma run_simulation {step' : τ → β → Option τ} {I : σ → Prop} (f : σ → τ) (act : σ → α → List β)
    (hI : ∀ s a t, I s → step s a = some t → I t)
    (hstep : ∀ s a t, I s → step s a = some t → run step' (f s) (act s a) = some (f t))
    {s t : σ} {as : List α} (hs : I s) (h : run step s as = some t) :
    run step' (f s) (trace step act s as) = some (f t) := by
  refine run_induction
    (P := fun as t => run step' (f s) (trace step act s as) = some (f t)) rfl ?_ h
  intro as a t u hrun ha ih
  rw [trace_concat a hrun, run_append, ih]
  exact hstep t a u (run_invariant hI hs hrun) ha

end Trace

end Transition
