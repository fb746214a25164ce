import Mathlib.Data.Finset.Basic
import Mathlib.Logic.Relation
import PcdProject.Core.Transition

/-!
# Programs over mutexes

What threads do with mutexes: acquire, release, wait for a condition variable, and the control flow
in between, all decisions being open. Rules of preconditions for the sets of mutexes that a thread
holds; programs that satisfy them acquire mutexes in the order of their ranks only, so that no
threads ever wait for each other in a circle.
-/

namespace LockProgram

open Transition Relation

/-- Code, as far as mutexes go. `wait m` is a call of `pthread_cond_wait` with the mutex `m`, and
`call` is a function from which `ret` returns. -/
inductive Code (M : Type*) where
  | skip
  | lock (m : M)
  | unlock (m : M)
  | wait (m : M)
  | seq (a b : Code M)
  | choice (a b : Code M)
  | loop (body : Code M)
  | call (body : Code M)
  | ret

namespace Code

variable {M : Type*}

/-- Statements in a row. -/
def block (cs : List (Code M)) : Code M := cs.foldr seq skip

/-- A statement under an `if` without `else`. -/
def cond (c : Code M) : Code M := choice c skip

/-- A list of cases. -/
def switch (cs : List (Code M)) : Code M := cs.foldr choice skip

end Code

variable {M : Type*}

/-- The code that a thread has still to execute, one list for each function that it is in. -/
abbrev Stack (M : Type*) := List (List (Code M))

structure State (M : Type*) where
  owner : M → Option ℕ
  threads : List (Stack M)

/-- A step of thread `i`; `decision` is the outcome of a test. -/
structure Move where
  i : ℕ
  decision : Bool

/-! ### Steps -/

namespace State

variable [DecidableEq M]

def init (programs : List (Code M)) : State M where
  owner := fun _ => none
  threads := programs.map fun c => [[c]]

def goto (s : State M) (i : ℕ) (stack : Stack M) : State M :=
  { s with threads := s.threads.set i stack }

def setOwner (s : State M) (m : M) (o : Option ℕ) : State M :=
  { s with owner := Function.update s.owner m o }

/-- A step; `none` if the thread has ended, waits for a mutex, or releases one that it does not
hold. A thread that waits for a condition wakes up at any time and acquires the mutex again. -/
def step (s : State M) (a : Move) : Option (State M) :=
  match s.threads[a.i]? with
  | some ([] :: calls) => some (s.goto a.i calls)
  | some ((c :: cs) :: calls) =>
    match c with
    | .skip => some (s.goto a.i (cs :: calls))
    | .lock m =>
      if s.owner m = none then some ((s.goto a.i (cs :: calls)).setOwner m (some a.i)) else none
    | .unlock m =>
      if s.owner m = some a.i then some ((s.goto a.i (cs :: calls)).setOwner m none) else none
    | .wait m =>
      if s.owner m = some a.i then
        some ((s.goto a.i ((.skip :: .lock m :: cs) :: calls)).setOwner m none)
      else none
    | .seq c d => some (s.goto a.i ((c :: d :: cs) :: calls))
    | .choice c d => some (s.goto a.i (((if a.decision then c else d) :: cs) :: calls))
    | .loop body =>
      some (s.goto a.i ((if a.decision then body :: .loop body :: cs else cs) :: calls))
    | .call body => some (s.goto a.i ([body] :: cs :: calls))
    | .ret => some (s.goto a.i calls)
  | _ => none

/-- The mutex that thread `i` acquires next. -/
def wants (s : State M) (i : ℕ) : Option M :=
  match s.threads[i]? with
  | some ((.lock m :: _) :: _) => some m
  | _ => none

/-- Thread `i` is blocked on a mutex that thread `j` holds. -/
def WaitsFor (s : State M) (i j : ℕ) : Prop := ∃ m, s.wants i = some m ∧ s.owner m = some j

end State

/-! ### Preconditions -/

section Rules

variable [DecidableEq M] {rank : M → ℕ}

/-- A thread that holds the mutexes `h` may acquire `m`. -/
def Acquires (rank : M → ℕ) (m : M) (h : Finset M) : Prop := ∀ x ∈ h, rank x < rank m

instance (m : M) (h : Finset M) : Decidable (Acquires rank m h) :=
  inferInstanceAs (Decidable (∀ x ∈ h, _))

/-- The weakest precondition of `c` on the set of the mutexes held, for the postcondition `Q` behind
`c` and `R` at a `ret`. The invariant of a loop is the set at its beginning. -/
def wp (rank : M → ℕ) : Code M → (Finset M → Prop) → (Finset M → Prop) → Finset M → Prop
  | .skip, _, Q, h       => Q h
  | .lock m, _, Q, h     => Acquires rank m h ∧ Q (insert m h)
  | .unlock m, _, Q, h   => m ∈ h ∧ Q (h.erase m)
  | .wait m, _, Q, h     => m ∈ h ∧ Acquires rank m (h.erase m) ∧ Q h
  | .seq c d, R, Q, h    => wp rank c R (wp rank d R Q) h
  | .choice c d, R, Q, h => wp rank c R Q h ∧ wp rank d R Q h
  | .loop body, R, Q, h  => wp rank body R (· = h) h ∧ Q h
  | .call body, _, Q, h  => wp rank body Q Q h
  | .ret, R, _, h        => R h

instance decidableWp (c : Code M) (R Q : Finset M → Prop) (h : Finset M) [hR : DecidablePred R]
    [hQ : DecidablePred Q] : Decidable (wp rank c R Q h) :=
  match c with
  | .skip => hQ h
  | .lock m => inferInstanceAs (Decidable (Acquires rank m h ∧ Q (insert m h)))
  | .unlock m => inferInstanceAs (Decidable (m ∈ h ∧ Q (h.erase m)))
  | .wait m => inferInstanceAs (Decidable (m ∈ h ∧ Acquires rank m (h.erase m) ∧ Q h))
  | .seq c d =>
    have : DecidablePred (wp rank d R Q) := fun h' => decidableWp d R Q h'
    decidableWp c R (wp rank d R Q) h
  | .choice c d =>
    have := decidableWp c R Q h
    have := decidableWp d R Q h
    inferInstanceAs (Decidable (wp rank c R Q h ∧ wp rank d R Q h))
  | .loop body =>
    have := decidableWp body R (· = h) h
    inferInstanceAs (Decidable (wp rank body R (· = h) h ∧ Q h))
  | .call body => decidableWp body Q Q h
  | .ret => hR h

lemma wp_mono {c : Code M} {R R' Q Q' : Finset M → Prop} {h : Finset M} (hR : ∀ x, R x → R' x)
    (hQ : ∀ x, Q x → Q' x) (hc : wp rank c R Q h) : wp rank c R' Q' h := by
  induction c generalizing R R' Q Q' h with
  | skip => exact hQ h hc
  | lock m => exact ⟨hc.1, hQ _ hc.2⟩
  | unlock m => exact ⟨hc.1, hQ _ hc.2⟩
  | wait m => exact ⟨hc.1, hc.2.1, hQ h hc.2.2⟩
  | seq c d ihc ihd => exact ihc hR (fun x hx => ihd hR hQ hx) hc
  | choice c d ihc ihd => exact ⟨ihc hR hQ hc.1, ihd hR hQ hc.2⟩
  | loop body ih => exact ⟨ih hR (fun x hx => hx) hc.1, hQ h hc.2⟩
  | call body ih => exact ih hQ hQ hc
  | ret => exact hR h hc

/-- The precondition of a list of statements. -/
def BlockOk (rank : M → ℕ) (cs : List (Code M)) (R Q : Finset M → Prop) : Finset M → Prop :=
  cs.foldr (fun c post => wp rank c R post) Q

/-- The precondition of a thread. -/
def StackOk (rank : M → ℕ) : Stack M → Finset M → Prop
  | [], _          => True
  | cs :: calls, h => BlockOk rank cs (StackOk rank calls) (StackOk rank calls) h

/-- A program that runs forever acquires mutexes in order and releases what it acquired. -/
def Ordered (rank : M → ℕ) (c : Code M) : Prop := wp rank c (fun _ => True) (fun _ => True) ∅

instance (c : Code M) : Decidable (Ordered rank c) := decidableWp c _ _ _

end Rules

/-! ### Ordered threads -/

section Threads

variable [DecidableEq M] {rank : M → ℕ} {s t : State M} {a : Move} {i : ℕ}

/-- The set `h` consists of the mutexes of thread `i`. -/
def State.Holds (s : State M) (i : ℕ) (h : Finset M) : Prop := ∀ m, m ∈ h ↔ s.owner m = some i

/-- The rules permit what each thread has still to execute. -/
def AllOrdered (rank : M → ℕ) (s : State M) : Prop :=
  ∀ i stack, s.threads[i]? = some stack → ∃ h, s.Holds i h ∧ StackOk rank stack h

lemma allOrdered_init {programs : List (Code M)} (h : ∀ c ∈ programs, Ordered rank c) :
    AllOrdered rank (State.init programs) := by
  intro i stack hi
  simp only [State.init, List.getElem?_map, Option.map_eq_some_iff] at hi
  obtain ⟨c, hc, rfl⟩ := hi
  refine ⟨∅, ?_, h c (List.mem_of_getElem? hc)⟩
  intro m
  simp [State.init]

/-- A step of a thread that leaves the mutexes alone. -/
lemma AllOrdered.goto (hs : AllOrdered rank s) {stack stack' : Stack M}
    (hi : s.threads[i]? = some stack) (hstack : ∀ h, StackOk rank stack h → StackOk rank stack' h) :
    AllOrdered rank (s.goto i stack') := by
  intro j stack'' hj
  simp only [State.goto, List.getElem?_set] at hj
  split_ifs at hj with hij hlen
  · cases hj
    subst hij
    obtain ⟨h, hholds, hok⟩ := hs i stack hi
    exact ⟨h, hholds, hstack h hok⟩
  · exact hs j stack'' hj

/-- A mutex that passes between thread `i` and nobody is not one of thread `j`. -/
lemma State.Holds.frame {j : ℕ} {m : M} {o : Option ℕ} {h : Finset M} {stack : Stack M}
    (hs : s.Holds j h) (hij : i ≠ j) (hbefore : s.owner m = none ∨ s.owner m = some i)
    (hafter : o = none ∨ o = some i) : ((s.goto i stack).setOwner m o).Holds j h := by
  intro x
  rw [hs x]
  by_cases hx : x = m
  · subst hx
    have hbefore' : s.owner x ≠ some j := by
      rcases hbefore with hnone | hsome
      · simp [hnone]
      · simpa [hsome] using hij
    have hafter' : o ≠ some j := by
      rcases hafter with rfl | rfl
      · simp
      · simpa using hij
    simp [State.setOwner, hbefore', hafter']
  · simp [State.setOwner, State.goto, hx]

/-- A step of a thread that takes `m` or gives it away. -/
lemma AllOrdered.setOwner (hs : AllOrdered rank s) {stack stack' : Stack M} {m : M} {o : Option ℕ}
    (hi : s.threads[i]? = some stack) (hbefore : s.owner m = none ∨ s.owner m = some i)
    (hafter : o = none ∨ o = some i)
    (hstack : ∀ h, s.Holds i h → StackOk rank stack h →
      ∃ h', ((s.goto i stack').setOwner m o).Holds i h' ∧ StackOk rank stack' h') :
    AllOrdered rank ((s.goto i stack').setOwner m o) := by
  intro j stack'' hj
  simp only [State.setOwner, State.goto, List.getElem?_set] at hj
  split_ifs at hj with hij hlen
  · cases hj
    subst hij
    obtain ⟨h, hholds, hok⟩ := hs i stack hi
    exact hstack h hholds hok
  · obtain ⟨h, hholds, hok⟩ := hs j stack'' hj
    exact ⟨h, hholds.frame hij hbefore hafter, hok⟩

lemma AllOrdered.acquire (hs : AllOrdered rank s) {stack stack' : Stack M} {m : M}
    (hi : s.threads[i]? = some stack) (hfree : s.owner m = none)
    (hstack : ∀ h, StackOk rank stack h → StackOk rank stack' (insert m h)) :
    AllOrdered rank ((s.goto i stack').setOwner m (some i)) := by
  refine hs.setOwner hi (.inl hfree) (.inr rfl) ?_
  intro h hholds hok
  refine ⟨insert m h, ?_, hstack h hok⟩
  intro x
  by_cases hx : x = m
  · simp [hx, State.setOwner]
  · simp [hx, State.setOwner, State.goto, hholds x]

lemma AllOrdered.release (hs : AllOrdered rank s) {stack stack' : Stack M} {m : M}
    (hi : s.threads[i]? = some stack) (hown : s.owner m = some i)
    (hstack : ∀ h, m ∈ h → StackOk rank stack h → StackOk rank stack' (h.erase m)) :
    AllOrdered rank ((s.goto i stack').setOwner m none) := by
  refine hs.setOwner hi (.inr hown) (.inl rfl) ?_
  intro h hholds hok
  refine ⟨h.erase m, ?_, hstack h ((hholds m).mpr hown) hok⟩
  intro x
  by_cases hx : x = m
  · simp [hx, State.setOwner]
  · simp [hx, State.setOwner, State.goto, hholds x]

lemma AllOrdered.step (hs : AllOrdered rank s) (h : s.step a = some t) : AllOrdered rank t := by
  unfold State.step at h
  split at h
  · rename_i calls hi
    cases h
    exact hs.goto hi fun h hok => hok
  · rename_i c cs calls hi
    split at h
    · cases h
      exact hs.goto hi fun h hok => hok
    · split_ifs at h with hfree
      cases h
      exact hs.acquire hi hfree fun h hok => hok.2
    · split_ifs at h with hown
      cases h
      exact hs.release hi hown fun h _ hok => hok.2
    · rename_i m
      split_ifs at h with hown
      cases h
      refine hs.release hi hown ?_
      -- the mutex is acquired again
      rintro h hm ⟨-, horder, hok⟩
      refine ⟨horder, ?_⟩
      rw [Finset.insert_erase hm]
      exact hok
    · cases h
      exact hs.goto hi fun h hok => hok
    · cases h
      refine hs.goto hi ?_
      rintro h ⟨hc, hd⟩
      split_ifs
      · exact hc
      · exact hd
    · rename_i body
      cases h
      refine hs.goto hi ?_
      rintro h ⟨hbody, hok⟩
      split_ifs
      · refine wp_mono (fun x hx => hx) ?_ hbody
        rintro x rfl
        exact ⟨hbody, hok⟩
      · exact hok
    · cases h
      exact hs.goto hi fun h hok => hok
    · cases h
      exact hs.goto hi fun h hok => hok
  · cases h

/-- A thread that is about to acquire a mutex holds only mutexes of smaller rank. -/
lemma AllOrdered.rank_lt (hs : AllOrdered rank s) {m x : M} (hwants : s.wants i = some m)
    (hx : s.owner x = some i) : rank x < rank m := by
  unfold State.wants at hwants
  split at hwants
  · rename_i hi
    cases hwants
    obtain ⟨h, hholds, horder, -⟩ := hs i _ hi
    exact horder x ((hholds x).mpr hx)
  · cases hwants

/-- Along a chain of blocked threads the ranks of the mutexes rise. -/
lemma AllOrdered.rank_lt_of_transGen (hs : AllOrdered rank s) {j : ℕ} {m : M}
    (h : TransGen s.WaitsFor i j) (hwants : s.wants j = some m) :
    ∃ x, s.wants i = some x ∧ rank x < rank m := by
  induction h using TransGen.head_induction_on with
  | single hij =>
    obtain ⟨x, hx, howner⟩ := hij
    exact ⟨x, hx, hs.rank_lt hwants howner⟩
  | head hik _ ih =>
    obtain ⟨y, hy, hlt⟩ := ih
    obtain ⟨x, hx, howner⟩ := hik
    exact ⟨x, hx, (hs.rank_lt hy howner).trans hlt⟩

/-- No threads wait for each other in a circle. -/
lemma AllOrdered.acyclic (hs : AllOrdered rank s) (i : ℕ) : ¬ TransGen s.WaitsFor i i := by
  intro h
  obtain ⟨j, ⟨m, hm, -⟩, -⟩ := TransGen.head'_iff.mp h
  obtain ⟨x, hx, hlt⟩ := hs.rank_lt_of_transGen h hm
  obtain rfl : m = x := Option.some.inj (hm.symm.trans hx)
  exact lt_irrefl _ hlt

/-- No thread acquires a mutex that it holds. -/
lemma AllOrdered.owner_ne (hs : AllOrdered rank s) {m : M} (hwants : s.wants i = some m) :
    s.owner m ≠ some i :=
  fun howner => lt_irrefl _ (hs.rank_lt hwants howner)

end Threads

end LockProgram
