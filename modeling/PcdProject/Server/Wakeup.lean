import PcdProject.Server.UploadGate

/-!
# Wake-ups of the upload workers

The loop of `upload_thread_func`, the critical section of `handle_upload_request` and
`set_max_uploads` with their mutexes and the condition variable `upload_available`. The test of the
guard and the going to sleep are separate steps, and a signal wakes one sleeping worker or nobody.
-/

namespace Pcd

namespace Wakeup

open Transition

/-- Where a worker is. From `testing` to `releasing` it holds `upload_queue.mutex`, but not while
it is `asleep` or `woken`; in `signalling` and `unlocking` it holds `active_uploads_mutex`. -/
inductive Location where
  | enter
  | testing
  | blocking
  | asleep
  | woken
  | taking
  | counting
  | releasing
  | uploading
  | signalling
  | unlocking
  deriving DecidableEq

/-- Where `handle_upload_request` is; except in `idle` it holds `upload_queue.mutex`. -/
inductive Requester where
  | idle
  | signalling
  | unlocking
  deriving DecidableEq

namespace Location

def holdsQueue : Location → Bool
  | .testing | .blocking | .taking | .counting | .releasing => true
  | _ => false

def holdsActive : Location → Bool
  | .signalling | .unlocking => true
  | _ => false

/-- The worker tests the guard before it can sleep again. -/
def awake : Location → Bool
  | .enter | .testing | .woken | .signalling | .unlocking => true
  | _ => false

/-- The worker sleeps or has decided to. -/
def sleeping : Location → Bool
  | .blocking | .asleep => true
  | _ => false

/-- The worker has passed the guard and has not finished. -/
def busy : Location → Bool
  | .taking | .counting | .releasing | .uploading => true
  | _ => false

end Location

/-- The number of threads of `handle_upload_request` that hold the mutex. -/
def Requester.holdsQueue : Requester → ℕ
  | .idle => 0
  | .signalling | .unlocking => 1

/-- The number of signals that it is about to send. -/
def Requester.signals : Requester → ℕ
  | .signalling => 1
  | .idle | .unlocking => 0

structure State where
  workers : List Location
  requester : Requester
  size : ℕ
  activeUploads : ℤ
  maxUploads : ℤ

inductive Action where
  | lock (w : ℕ)
  | test (w : ℕ)
  | wait (w : ℕ)
  | take (w : ℕ)
  | count (w : ℕ)
  | release (w : ℕ)
  | finish (w : ℕ)
  | signal (w : ℕ) (wakes : Option ℕ)
  | unlock (w : ℕ)
  | enqueue
  | requestSignal (wakes : Option ℕ)
  | requestUnlock
  | setMaxUploads (n : ℤ)

/-- The limit that `set_max_uploads` stores. -/
def Action.newLimit : Action → Option ℤ
  | .setMaxUploads n => if n < 0 ∨ n > MAX_UPLOADS then none else some n
  | _ => none

/-- `pthread_cond_signal(&upload_available)` -/
def condSignal (workers : List Location) : Option ℕ → Option (List Location)
  | some w => if workers[w]? = some .asleep then some (workers.set w .woken) else none
  | none   => if workers.countP (· = .asleep) = 0 then some workers else none

/-- The signals of finishing workers that find a sleeping worker. -/
def heard (asleep signalling : ℕ) : ℕ := if asleep = 0 then 0 else signalling

lemma heard_cases (asleep signalling : ℕ) :
    (asleep = 0 ∧ heard asleep signalling = 0) ∨
      (0 < asleep ∧ heard asleep signalling = signalling) := by
  unfold heard
  split_ifs <;> omega

lemma heard_mono {asleep asleep' signalling signalling' : ℕ} (hasleep : asleep ≤ asleep')
    (hsignalling : signalling ≤ signalling') :
    heard asleep signalling ≤ heard asleep' signalling' := by
  have h := heard_cases asleep signalling
  have h' := heard_cases asleep' signalling'
  omega

namespace State

def init : State where
  workers := List.replicate MAX_UPLOADS .enter
  requester := .idle
  size := 0
  activeUploads := 0
  maxUploads := MAX_UPLOADS

def queueHeld (s : State) : Bool := s.requester ≠ .idle || s.workers.any Location.holdsQueue

def activeHeld (s : State) : Bool := s.workers.any Location.holdsActive

def goto (s : State) (w : ℕ) (pc : Location) : State := { s with workers := s.workers.set w pc }

def step (s : State) : Action → Option State
  | .lock w                =>
    if (s.workers[w]? = some .enter ∨ s.workers[w]? = some .woken) ∧ s.queueHeld = false then
      some (s.goto w .testing)
    else none
  | .test w                =>
    if s.workers[w]? = some .testing then
      if s.size = 0 ∨ s.activeUploads ≥ s.maxUploads then some (s.goto w .blocking)
      else some (s.goto w .taking)
    else none
  | .wait w                =>
    if s.workers[w]? = some .blocking then some (s.goto w .asleep) else none
  | .take w                =>
    if s.workers[w]? = some .taking then some ({ s with size := s.size - 1 }.goto w .counting)
    else none
  | .count w               =>
    if s.workers[w]? = some .counting ∧ s.activeHeld = false then
      some ({ s with activeUploads := s.activeUploads + 1 }.goto w .releasing)
    else none
  | .release w             =>
    if s.workers[w]? = some .releasing then some (s.goto w .uploading) else none
  | .finish w              =>
    if s.workers[w]? = some .uploading ∧ s.activeHeld = false then
      some ({ s with activeUploads := s.activeUploads - 1 }.goto w .signalling)
    else none
  | .signal w wakes        =>
    if s.workers[w]? = some .signalling then
      (condSignal (s.workers.set w .unlocking) wakes).map fun ws => { s with workers := ws }
    else none
  | .unlock w              =>
    if s.workers[w]? = some .unlocking then some (s.goto w .enter) else none
  | .enqueue               =>
    if s.queueHeld = false then some { s with size := s.size + 1, requester := .signalling }
    else none
  | .requestSignal wakes   =>
    if s.requester = .signalling then
      (condSignal s.workers wakes).map fun ws => { s with workers := ws, requester := .unlocking }
    else none
  | .requestUnlock         =>
    if s.requester = .unlocking then some { s with requester := .idle } else none
  | .setMaxUploads n       =>
    some (if n < 0 ∨ n > MAX_UPLOADS then s else { s with maxUploads := n })

/-- An upload is queued and admissible, every worker outside `process_upload` sleeps, and no thread
is about to signal. -/
def Stranded (s : State) : Prop :=
  0 < s.size ∧ s.activeUploads < s.maxUploads ∧
    (∀ pc ∈ s.workers, pc = .asleep ∨ pc = .uploading) ∧ s.requester ≠ .signalling

/-- The signals about to be sent that will find a sleeping worker. -/
def signals (s : State) : ℕ :=
  s.requester.signals +
    heard (s.workers.countP (· = .asleep)) (s.workers.countP (· = .signalling))

/-- With the limit `limit`, each queued upload has a worker that takes it or is awake or a signal
that is about to be sent, or else no more workers sleep than the limit leaves idle, those with a
signal on the way not counted. -/
def Covered (s : State) (limit : ℤ) : Prop :=
  s.size ≤ s.workers.countP (· = .taking) + s.workers.countP Location.awake + s.signals ∨
    limit + s.workers.countP Location.sleeping ≤ s.workers.length + s.signals

instance (s : State) : Decidable s.Stranded := inferInstanceAs (Decidable (_ ∧ _))

instance (s : State) (limit : ℤ) : Decidable (s.Covered limit) :=
  inferInstanceAs (Decidable (_ ∨ _))

/-- If the step moves the limit, the queue is covered under the new one. -/
def RaisesCovered (s : State) (a : Action) : Prop := ∀ limit ∈ a.newLimit, s.Covered limit

instance (s : State) (a : Action) : Decidable (s.RaisesCovered a) :=
  inferInstanceAs (Decidable (∀ limit ∈ a.newLimit, s.Covered limit))

end State

/-! ### What a step changes -/

inductive Rule (s : State) : Action → State → Prop where
  | lock (w : ℕ) (pc : Location) (hpc : s.workers[w]? = some pc)
      (hpc' : pc = .enter ∨ pc = .woken) (hfree : s.queueHeld = false) :
      Rule s (.lock w) (s.goto w .testing)
  | block (w : ℕ) (hpc : s.workers[w]? = some .testing)
      (hguard : s.size = 0 ∨ s.activeUploads ≥ s.maxUploads) :
      Rule s (.test w) (s.goto w .blocking)
  | pass (w : ℕ) (hpc : s.workers[w]? = some .testing) (hsize : 0 < s.size)
      (hlt : s.activeUploads < s.maxUploads) : Rule s (.test w) (s.goto w .taking)
  | wait (w : ℕ) (hpc : s.workers[w]? = some .blocking) : Rule s (.wait w) (s.goto w .asleep)
  | take (w : ℕ) (hpc : s.workers[w]? = some .taking) :
      Rule s (.take w) ({ s with size := s.size - 1 }.goto w .counting)
  | count (w : ℕ) (hpc : s.workers[w]? = some .counting) :
      Rule s (.count w) ({ s with activeUploads := s.activeUploads + 1 }.goto w .releasing)
  | release (w : ℕ) (hpc : s.workers[w]? = some .releasing) :
      Rule s (.release w) (s.goto w .uploading)
  | finish (w : ℕ) (hpc : s.workers[w]? = some .uploading) (hfree : s.activeHeld = false) :
      Rule s (.finish w) ({ s with activeUploads := s.activeUploads - 1 }.goto w .signalling)
  | signal (w : ℕ) (wakes : Option ℕ) (ws : List Location)
      (hpc : s.workers[w]? = some .signalling)
      (hws : condSignal (s.workers.set w .unlocking) wakes = some ws) :
      Rule s (.signal w wakes) { s with workers := ws }
  | unlock (w : ℕ) (hpc : s.workers[w]? = some .unlocking) :
      Rule s (.unlock w) (s.goto w .enter)
  | enqueue (hfree : s.queueHeld = false) :
      Rule s .enqueue { s with size := s.size + 1, requester := .signalling }
  | requestSignal (wakes : Option ℕ) (ws : List Location) (hreq : s.requester = .signalling)
      (hws : condSignal s.workers wakes = some ws) :
      Rule s (.requestSignal wakes) { s with workers := ws, requester := .unlocking }
  | requestUnlock (hreq : s.requester = .unlocking) :
      Rule s .requestUnlock { s with requester := .idle }
  | limit (n : ℤ) (hn : ¬ (n < 0 ∨ n > MAX_UPLOADS)) :
      Rule s (.setMaxUploads n) { s with maxUploads := n }
  | limitIgnored (n : ℤ) (hn : n < 0 ∨ n > MAX_UPLOADS) : Rule s (.setMaxUploads n) s

lemma Rule.of_step {s t : State} {a : Action} (h : s.step a = some t) : Rule s a t := by
  cases a with
  | lock w =>
    simp only [State.step] at h
    split_ifs at h with hpc
    cases h
    rcases hpc with ⟨hpc | hpc, hfree⟩
    · exact .lock w _ hpc (.inl rfl) hfree
    · exact .lock w _ hpc (.inr rfl) hfree
  | test w =>
    simp only [State.step] at h
    split_ifs at h with hpc hguard <;> cases h
    · exact .block w hpc hguard
    · exact .pass w hpc (by omega) (by omega)
  | wait w =>
    simp only [State.step] at h
    split_ifs at h with hpc
    cases h
    exact .wait w hpc
  | take w =>
    simp only [State.step] at h
    split_ifs at h with hpc
    cases h
    exact .take w hpc
  | count w =>
    simp only [State.step] at h
    split_ifs at h with hpc
    cases h
    exact .count w hpc.1
  | release w =>
    simp only [State.step] at h
    split_ifs at h with hpc
    cases h
    exact .release w hpc
  | finish w =>
    simp only [State.step] at h
    split_ifs at h with hpc
    cases h
    exact .finish w hpc.1 hpc.2
  | signal w wakes =>
    simp only [State.step] at h
    split_ifs at h with hpc
    obtain ⟨ws, hws, rfl⟩ := Option.map_eq_some_iff.mp h
    exact .signal w wakes ws hpc hws
  | unlock w =>
    simp only [State.step] at h
    split_ifs at h with hpc
    cases h
    exact .unlock w hpc
  | enqueue =>
    simp only [State.step] at h
    split_ifs at h with hfree
    cases h
    exact .enqueue hfree
  | requestSignal wakes =>
    simp only [State.step] at h
    split_ifs at h with hreq
    obtain ⟨ws, hws, rfl⟩ := Option.map_eq_some_iff.mp h
    exact .requestSignal wakes ws hreq hws
  | requestUnlock =>
    simp only [State.step] at h
    split_ifs at h with hreq
    cases h
    exact .requestUnlock hreq
  | setMaxUploads n =>
    simp only [State.step, Option.some.injEq] at h
    split_ifs at h with hn
    · exact h ▸ .limitIgnored n hn
    · exact h ▸ .limit n hn

lemma condSignal_cases {ws ws' : List Location} {wakes : Option ℕ}
    (h : condSignal ws wakes = some ws') :
    (∃ w, ws[w]? = some .asleep ∧ ws' = ws.set w .woken) ∨
      ws' = ws ∧ ws.countP (· = .asleep) = 0 := by
  cases wakes with
  | some w =>
    simp only [condSignal] at h
    split_ifs at h with hpc
    exact .inl ⟨w, hpc, (Option.some.inj h).symm⟩
  | none =>
    simp only [condSignal] at h
    split_ifs at h with hnone
    exact .inr ⟨(Option.some.inj h).symm, hnone⟩

/-- A signal leaves the counts that do not tell a sleeping worker from a woken one. -/
lemma condSignal_countP {ws ws' : List Location} {wakes : Option ℕ}
    (h : condSignal ws wakes = some ws') {p : Location → Bool} (hp : p .woken = p .asleep) :
    ws'.countP p = ws.countP p := by
  rcases condSignal_cases h with ⟨w, hpc, rfl⟩ | ⟨rfl, -⟩
  · have hset := Census.countP_set p .woken hpc
    rw [hp] at hset
    exact Nat.add_right_cancel hset
  · rfl

/-! ### Counting the workers -/

/-- Every worker is awake, asleep or about to sleep, or busy. -/
lemma length_eq_awake_add_sleeping_add_busy (ws : List Location) :
    ws.length = ws.countP Location.awake + ws.countP Location.sleeping
      + ws.countP Location.busy := by
  induction ws with
  | nil => rfl
  | cons pc ws ih =>
    rw [List.length_cons, ih]
    cases pc <;> simp [List.countP_cons, Location.awake, Location.sleeping, Location.busy] <;> omega

lemma sleeping_eq_asleep_add_blocking (ws : List Location) :
    ws.countP Location.sleeping = ws.countP (· = .asleep) + ws.countP (· = .blocking) := by
  induction ws with
  | nil => rfl
  | cons pc ws ih => cases pc <;> simp [List.countP_cons, Location.sleeping, ih] <;> omega

/-- The locations at which a worker holds the mutex of the queue. -/
lemma holdsQueue_eq (ws : List Location) :
    ws.countP Location.holdsQueue = ws.countP (· = .testing) + ws.countP (· = .blocking)
      + ws.countP (· = .taking) + ws.countP (· = .counting) + ws.countP (· = .releasing) := by
  induction ws with
  | nil => rfl
  | cons pc ws ih => cases pc <;> simp [List.countP_cons, Location.holdsQueue, ih] <;> omega

lemma signalling_le_holdsActive (ws : List Location) :
    ws.countP (· = .signalling) ≤ ws.countP Location.holdsActive := by
  apply List.countP_mono_left
  intro pc _ h
  rw [of_decide_eq_true h]
  rfl

/-! ### The gate -/

namespace State

/-- The uploads that a worker has passed the guard for are no longer queued. -/
def gate (s : State) : UploadGate where
  busy := s.workers.map Location.busy
  queued := s.size - s.workers.countP (· = .taking)
  active := s.activeUploads + s.workers.countP (· = .taking) + s.workers.countP (· = .counting)
  limit := s.maxUploads

def gateAction (s : State) : Action → Option GateAction
  | .test w          =>
    if s.size = 0 ∨ s.activeUploads ≥ s.maxUploads then none else some (.pick w)
  | .finish w        => some (.finish w)
  | .enqueue         => some .enqueue
  | .setMaxUploads n => some (.setLimit n)
  | _                => none

/-- At most one thread holds each mutex. -/
structure Exclusive (s : State) : Prop where
  queue  : s.workers.countP Location.holdsQueue + s.requester.holdsQueue ≤ 1
  active : s.workers.countP Location.holdsActive ≤ 1

variable {s t : State} {a : Action}

lemma queueHeld_eq_false (h : s.queueHeld = false) :
    s.requester = .idle ∧ s.workers.countP Location.holdsQueue = 0 := by
  simp only [queueHeld, Bool.or_eq_false_iff, decide_eq_false_iff_not, not_not] at h
  refine ⟨h.1, List.countP_eq_zero.mpr ?_⟩
  intro pc hpc
  exact List.any_eq_false.mp h.2 pc hpc

lemma activeHeld_eq_false (h : s.activeHeld = false) :
    s.workers.countP Location.holdsActive = 0 := by
  apply List.countP_eq_zero.mpr
  intro pc hpc
  exact List.any_eq_false.mp h pc hpc

/-- A worker that moves without taking a mutex. -/
lemma Exclusive.move {w : ℕ} {pc pc' : Location} (hs : s.Exclusive)
    (hpc : s.workers[w]? = some pc) (hw : t.workers = s.workers.set w pc')
    (hreq : t.requester = s.requester)
    (hqueue : pc'.holdsQueue = true → pc.holdsQueue = true)
    (hactive : pc'.holdsActive = true → pc.holdsActive = true) : t.Exclusive := by
  constructor
  · rw [hw, hreq]
    exact (Nat.add_le_add_right (Census.countP_set_le hpc hqueue) _).trans hs.queue
  · rw [hw]
    exact (Census.countP_set_le hpc hactive).trans hs.active

lemma Exclusive.step (hs : s.Exclusive) (h : s.step a = some t) : t.Exclusive := by
  have hqueue := hs.queue
  have hactive := hs.active
  cases Rule.of_step h with
  | lock w pc hpc hpc' hfree =>
    obtain ⟨hidle, hnone⟩ := queueHeld_eq_false hfree
    have hq := Census.countP_set Location.holdsQueue .testing hpc
    have ha := Census.countP_set Location.holdsActive .testing hpc
    simp only [Location.holdsQueue, Location.holdsActive, Bool.toNat_true, Bool.toNat_false] at hq ha
    constructor
    · simp only [goto, hidle, Requester.holdsQueue]
      omega
    · simp only [goto]
      omega
  | block w hpc | pass w hpc | wait w hpc | take w hpc | count w hpc | release w hpc
  | unlock w hpc => exact hs.move hpc rfl rfl (by decide) (by decide)
  | finish w hpc hfree =>
    have hnone := activeHeld_eq_false hfree
    have hq := Census.countP_set Location.holdsQueue .signalling hpc
    have ha := Census.countP_set Location.holdsActive .signalling hpc
    simp only [Location.holdsQueue, Location.holdsActive, Bool.toNat_true, Bool.toNat_false] at hq ha
    constructor
    · simp only [goto]
      omega
    · simp only [goto]
      omega
  | signal w wakes ws hpc hws =>
    have hgoto : (s.goto w .unlocking).Exclusive := hs.move hpc rfl rfl (by decide) (by decide)
    constructor
    · rw [condSignal_countP hws rfl]
      exact hgoto.queue
    · rw [condSignal_countP hws rfl]
      exact hgoto.active
  | enqueue hfree =>
    obtain ⟨-, hnone⟩ := queueHeld_eq_false hfree
    exact ⟨by simp [Requester.holdsQueue, hnone], hactive⟩
  | requestSignal wakes ws hreq hws =>
    simp only [hreq, Requester.holdsQueue] at hqueue
    constructor
    · rw [condSignal_countP hws rfl]
      exact hqueue
    · rw [condSignal_countP hws rfl]
      exact hactive
  | requestUnlock hreq =>
    simp only [hreq, Requester.holdsQueue] at hqueue
    exact ⟨by simp only [Requester.holdsQueue]; omega, hactive⟩
  | limit | limitIgnored => exact ⟨hqueue, hactive⟩

lemma map_busy_set {ws : List Location} {w : ℕ} {pc : Location} (pc' : Location)
    (hpc : ws[w]? = some pc)
    (hbusy : pc.busy = pc'.busy) : (ws.set w pc').map Location.busy = ws.map Location.busy := by
  obtain ⟨hlt, rfl⟩ := List.getElem?_eq_some_iff.mp hpc
  rw [List.map_set, ← hbusy, ← List.map_set, List.set_getElem_self]

/-- A signal does nothing at the gate. -/
lemma condSignal_gate {wakes : Option ℕ} {ws : List Location}
    (h : condSignal s.workers wakes = some ws) :
    gate { s with workers := ws } = s.gate := by
  have hmap : ws.map Location.busy = s.workers.map Location.busy := by
    rcases condSignal_cases h with ⟨w, hpc, rfl⟩ | ⟨rfl, -⟩
    · exact map_busy_set _ hpc rfl
    · rfl
  have htaking := condSignal_countP h (p := (· = .taking)) rfl
  have hcounting := condSignal_countP h (p := (· = .counting)) rfl
  simp only [gate, hmap, htaking, hcounting]

/-- A worker that stays on its side of the guard does nothing at the gate. -/
lemma gate_quiet {w : ℕ} {pc pc' : Location} (hpc : s.workers[w]? = some pc)
    (hw : t.workers = s.workers.set w pc') (hbusy : pc.busy = pc'.busy)
    (hpc' : pc' ≠ .taking) (hsize : t.size = s.size - (decide (pc = .taking)).toNat)
    (hcount : t.activeUploads + (decide (pc' = .counting)).toNat
      = s.activeUploads + (decide (pc = .taking)).toNat + (decide (pc = .counting)).toNat)
    (hlimit : t.maxUploads = s.maxUploads) : s.gate = t.gate := by
  have hmap : t.workers.map Location.busy = s.workers.map Location.busy := by
    rw [hw, map_busy_set _ hpc hbusy]
  have htaking := Census.countP_set (· = .taking) pc' hpc
  have hcounting := Census.countP_set (· = .counting) pc' hpc
  rw [← hw] at htaking hcounting
  rw [decide_eq_false hpc', Bool.toNat_false] at htaking
  have hqueued : t.size - t.workers.countP (· = .taking) = s.size - s.workers.countP (· = .taking) := by
    omega
  have hactive : t.activeUploads + t.workers.countP (· = .taking) + t.workers.countP (· = .counting)
      = s.activeUploads + s.workers.countP (· = .taking) + s.workers.countP (· = .counting) := by
    omega
  simp only [gate, hmap, hqueued, hactive, hlimit]

/-- While each mutex has at most one holder, every step is a step of the gate or none. A worker
passes the gate where it tests the guard. -/
lemma gate_step (hs : s.Exclusive) (h : s.step a = some t) :
    run UploadGate.step s.gate (s.gateAction a).toList = some t.gate := by
  have hqueue := hs.queue
  have hholds := holdsQueue_eq s.workers
  cases Rule.of_step h with
  | lock w pc hpc hpc' hfree =>
    rcases hpc' with rfl | rfl <;>
      exact congrArg some (gate_quiet hpc rfl rfl (by decide) rfl (by simp [goto]) rfl)
  | block w hpc hguard =>
    rw [gateAction, if_pos hguard]
    exact congrArg some (gate_quiet hpc rfl rfl (by decide) rfl (by simp [goto]) rfl)
  | pass w hpc hsize hlt =>
    have hone := Census.countP_pos (p := (· = .testing)) hpc rfl
    have htaking := Census.countP_set (· = .taking) .taking hpc
    have hcounting := Census.countP_set (· = .counting) .taking hpc
    simp only [reduceCtorEq, decide_true, decide_false, Bool.toNat_true, Bool.toNat_false,
      Nat.add_zero] at htaking hcounting
    have hguard : ¬ (s.size = 0 ∨ s.activeUploads ≥ s.maxUploads) := by omega
    have hnoTaking : s.workers.countP (· = .taking) = 0 := by omega
    have hnoCounting : s.workers.countP (· = .counting) = 0 := by omega
    rw [gateAction, if_neg hguard]
    simp [UploadGate.step, gate, goto, List.map_set, hpc, Location.busy, htaking, hcounting,
      hnoTaking, hnoCounting, hsize, hlt]
  | wait w hpc | release w hpc | unlock w hpc =>
    exact congrArg some (gate_quiet hpc rfl rfl (by decide) rfl (by simp [goto]) rfl)
  | take w hpc =>
    exact congrArg some (gate_quiet hpc rfl rfl (by decide) rfl (by simp [goto]) rfl)
  | count w hpc =>
    exact congrArg some (gate_quiet hpc rfl rfl (by decide) rfl (by simp [goto]) rfl)
  | finish w hpc hfree =>
    have htaking := Census.countP_set (· = .taking) .signalling hpc
    have hcounting := Census.countP_set (· = .counting) .signalling hpc
    simp only [reduceCtorEq, decide_false, Bool.toNat_false] at htaking hcounting
    simp [gateAction, UploadGate.step, gate, goto, List.map_set, hpc, Location.busy]
    omega
  | signal w wakes ws hpc hws =>
    have hquiet : s.gate = (s.goto w .unlocking).gate :=
      gate_quiet hpc rfl rfl (by decide) rfl (by simp [goto]) rfl
    exact congrArg some (hquiet.trans (condSignal_gate hws).symm)
  | enqueue hfree =>
    have hidle := queueHeld_eq_false hfree
    have htaking : s.workers.countP (· = .taking) = 0 := by omega
    simp [gateAction, UploadGate.step, gate, htaking]
  | requestSignal wakes ws hreq hws =>
    exact congrArg some (condSignal_gate hws).symm
  | requestUnlock hreq => rfl
  | limit n hn => simp [gateAction, UploadGate.step, gate, hn]
  | limitIgnored n hn => simp [gateAction, UploadGate.step, hn]

/-! ### No upload is stranded -/

structure Inv (s : State) : Prop where
  exclusive : s.Exclusive
  gate      : s.gate.Inv
  covered   : s.Covered s.maxUploads

lemma Inv.init : Inv State.init where
  exclusive := by constructor <;> decide
  gate := ⟨by decide, by decide, by decide⟩
  covered := .inl (Nat.zero_le _)

/-- The workers past the guard are those that `active_uploads` counts or is about to. -/
lemma Inv.counter (hs : Inv s) :
    s.activeUploads + s.workers.countP (· = .taking) + s.workers.countP (· = .counting)
      = s.workers.countP Location.busy := by
  have hcounter := hs.gate.counter
  simp only [State.gate, List.countP_map] at hcounter
  exact hcounter

lemma Inv.length (hs : Inv s) : s.workers.length = MAX_UPLOADS := by
  simpa [State.gate] using hs.gate.length

/-- A worker that moves leaves the queue covered if it does not go to sleep, neither wakes up nor
sends its signal, and still stands for its upload unless that left the queue. -/
lemma Covered.move {w : ℕ} {pc pc' : Location} {limit : ℤ} (hs : s.Covered limit)
    (hpc : s.workers[w]? = some pc) (hw : t.workers = s.workers.set w pc')
    (hreq : t.requester = s.requester)
    (hsize : t.size = 0 ∨ t.size + (decide (pc = .taking)).toNat + pc.awake.toNat
      ≤ s.size + (decide (pc' = .taking)).toNat + pc'.awake.toNat)
    (hsleeping : pc'.sleeping = true → pc.sleeping = true)
    (hasleep : pc = .asleep → pc' = .asleep)
    (hsignalling : pc = .signalling → pc' = .signalling) : t.Covered limit := by
  have htaking := Census.countP_set (· = .taking) pc' hpc
  have hawake := Census.countP_set Location.awake pc' hpc
  have hsleep := Census.countP_set_le hpc hsleeping
  have hsignals : s.signals ≤ t.signals := by
    unfold signals
    rw [hreq, hw]
    apply Nat.add_le_add_left
    apply heard_mono
    · exact Census.le_countP_set hpc (by simpa using hasleep)
    · exact Census.le_countP_set hpc (by simpa using hsignalling)
  unfold Covered
  rw [hw, List.length_set]
  rcases hs with hs | hs
  · left
    omega
  · right
    omega

/-- A signal wakes one worker if one sleeps. -/
lemma condSignal_counts {ws ws' : List Location} {wakes : Option ℕ}
    (h : condSignal ws wakes = some ws') :
    ∃ n, n ≤ 1 ∧ (n = 0 → ws.countP (· = .asleep) = 0) ∧
      ws'.length = ws.length ∧
      ws'.countP Location.awake = ws.countP Location.awake + n ∧
      ws'.countP Location.sleeping + n = ws.countP Location.sleeping ∧
      ws'.countP (· = .asleep) + n = ws.countP (· = .asleep) := by
  rcases condSignal_cases h with ⟨w, hpc, rfl⟩ | ⟨rfl, hnone⟩
  · have hset := fun p : Location → Bool => Census.countP_set p .woken hpc
    refine ⟨1, le_rfl, by simp, List.length_set, ?_, ?_, ?_⟩
    · simpa [Location.awake] using hset Location.awake
    · simpa [Location.sleeping] using hset Location.sleeping
    · simpa using hset (· = .asleep)
  · exact ⟨0, Nat.zero_le 1, fun _ => hnone, rfl, rfl, rfl, rfl⟩

/-- A worker that goes to sleep found the queue empty or the limit used up. -/
lemma Inv.covered_block {w : ℕ} (hs : Inv s) (hpc : s.workers[w]? = some .testing)
    (hguard : s.size = 0 ∨ s.activeUploads ≥ s.maxUploads) :
    (s.goto w .blocking).Covered s.maxUploads := by
  rcases hguard with hempty | hfull
  · left
    simp [goto, hempty]
  · right
    have hcounter := hs.counter
    have hpart := length_eq_awake_add_sleeping_add_busy s.workers
    have hawake := Census.countP_pos (p := Location.awake) hpc rfl
    have hsleeping := Census.countP_set Location.sleeping .blocking hpc
    simp only [Location.sleeping, Bool.toNat_true, Bool.toNat_false] at hsleeping
    simp only [goto, List.length_set]
    omega

/-- The only finishing worker that is about to signal sends its signal. -/
lemma Inv.covered_signal {w : ℕ} {wakes : Option ℕ} {ws : List Location} (hs : Inv s)
    (hpc : s.workers[w]? = some .signalling)
    (hws : condSignal (s.workers.set w .unlocking) wakes = some ws) :
    Covered { s with workers := ws } s.maxUploads := by
  have hcovered := hs.covered
  obtain ⟨n, hle, hnone, hlength, hawake, hsleeping, hasleep⟩ := condSignal_counts hws
  have htaking := condSignal_countP hws (p := (· = .taking)) rfl
  have hset := fun p : Location → Bool => Census.countP_set p .unlocking hpc
  have htaking' := hset (· = .taking)
  have hawake' := hset Location.awake
  have hsleeping' := hset Location.sleeping
  have hasleep' := hset (· = .asleep)
  simp only [reduceCtorEq, decide_false, Location.awake, Location.sleeping, Bool.toNat_true,
    Bool.toNat_false] at htaking' hawake' hsleeping' hasleep'
  have hheard : heard (s.workers.countP (· = .asleep)) (s.workers.countP (· = .signalling)) ≤ n := by
    have hactive := (signalling_le_holdsActive s.workers).trans hs.exclusive.active
    have hcases := heard_cases (s.workers.countP (· = .asleep)) (s.workers.countP (· = .signalling))
    omega
  unfold Covered signals at hcovered ⊢
  rw [hlength, List.length_set]
  rcases hcovered with hcovered | hcovered
  · left
    dsimp only
    omega
  · right
    dsimp only
    omega

/-- The requester holds the mutex, so that no worker is about to sleep when it signals. -/
lemma Inv.covered_requestSignal {wakes : Option ℕ} {ws : List Location} (hs : Inv s)
    (hreq : s.requester = .signalling) (hws : condSignal s.workers wakes = some ws) :
    Covered { s with workers := ws, requester := .unlocking } s.maxUploads := by
  have hcovered := hs.covered
  obtain ⟨n, hle, hnone, hlength, hawake, hsleeping, hasleep⟩ := condSignal_counts hws
  have htaking := condSignal_countP hws (p := (· = .taking)) rfl
  have hsignalling := condSignal_countP hws (p := (· = .signalling)) rfl
  have hblocking : s.workers.countP (· = .blocking) = 0 := by
    have hqueue := hs.exclusive.queue
    have hholds := holdsQueue_eq s.workers
    simp only [hreq, Requester.holdsQueue] at hqueue
    omega
  have hsleep := sleeping_eq_asleep_add_blocking s.workers
  by_cases hrest : ws.countP (· = .asleep) = 0
  · -- nobody sleeps any more, and the limit is at most the number of the workers
    right
    have hlimit : s.maxUploads ≤ MAX_UPLOADS := hs.gate.limit.2
    have hworkers := hs.length
    dsimp only
    omega
  · have hheard := heard_cases (s.workers.countP (· = .asleep)) (s.workers.countP (· = .signalling))
    have hheard' := heard_cases (ws.countP (· = .asleep)) (ws.countP (· = .signalling))
    unfold Covered signals at hcovered ⊢
    simp only [hreq, Requester.signals] at hcovered ⊢
    omega

lemma Inv.covered_step (hs : Inv s) (hC : s.RaisesCovered a) (h : s.step a = some t) :
    t.Covered t.maxUploads := by
  have hcovered := hs.covered
  cases Rule.of_step h with
  | lock w pc hpc hpc' hfree =>
    rcases hpc' with rfl | rfl <;>
      exact hcovered.move hpc rfl rfl (.inr le_rfl) (by decide) (by decide) (by decide)
  | pass w hpc | wait w hpc | count w hpc | release w hpc | unlock w hpc =>
    exact hcovered.move hpc rfl rfl (.inr le_rfl) (by decide) (by decide) (by decide)
  | take w hpc =>
    refine hcovered.move hpc rfl rfl ?_ (by decide) (by decide) (by decide)
    simp only [goto, reduceCtorEq, decide_true, decide_false, Location.awake]
    simp only [Bool.toNat_true, Bool.toNat_false]
    omega
  | finish w hpc hfree =>
    exact hcovered.move hpc rfl rfl (.inr (Nat.le_succ _)) (by decide) (by decide) (by decide)
  | block w hpc hguard => exact hs.covered_block hpc hguard
  | signal w wakes ws hpc hws => exact hs.covered_signal hpc hws
  | enqueue hfree =>
    have hidle := queueHeld_eq_false hfree
    unfold Covered signals at hcovered ⊢
    simp only [hidle.1, Requester.signals] at hcovered ⊢
    omega
  | requestSignal wakes ws hreq hws => exact hs.covered_requestSignal hreq hws
  | requestUnlock hreq =>
    unfold Covered signals at hcovered ⊢
    rwa [hreq] at hcovered
  | limit n hn =>
    exact hC n (by rw [Action.newLimit, if_neg hn]; rfl)
  | limitIgnored n hn => exact hcovered

lemma Inv.step (hs : Inv s) (hC : s.RaisesCovered a) (h : s.step a = some t) : Inv t where
  exclusive := hs.exclusive.step h
  gate := run_invariant (fun _ _ _ hg h => hg.step h) hs.gate (gate_step hs.exclusive h)
  covered := hs.covered_step hC h

/-- A queue that is covered has somebody awake for it. -/
lemma Inv.not_stranded (hs : Inv s) : ¬ s.Stranded := by
  rintro ⟨hsize, hlt, hworkers, hreq⟩
  have hnone : ∀ p : Location → Bool, p .asleep = false → p .uploading = false →
      s.workers.countP p = 0 := by
    intro p hasleep huploading
    apply List.countP_eq_zero.mpr
    intro pc hpc
    rcases hworkers pc hpc with rfl | rfl <;> simp [*]
  have hawake := hnone Location.awake rfl rfl
  have htaking := hnone (· = .taking) rfl rfl
  have hcounting := hnone (· = .counting) rfl rfl
  have hsignalling := hnone (· = .signalling) rfl rfl
  have hsignals : s.requester.signals = 0 := by
    cases hpc : s.requester <;> simp_all [Requester.signals]
  have hcovered := hs.covered
  have hcounter := hs.counter
  have hpart := length_eq_awake_add_sleeping_add_busy s.workers
  have hheard := heard_cases (s.workers.countP (· = .asleep)) (s.workers.countP (· = .signalling))
  unfold State.Covered State.signals at hcovered
  omega

end State

open State in
/-- Every run is a run of the gate, whatever happens to the limit. -/
theorem gate_run {as : List Action} {s : State} (h : run step init as = some s) :
    run UploadGate.step .init (trace step (fun s a => (s.gateAction a).toList) init as)
      = some s.gate :=
  run_simulation (I := Exclusive) gate _ (fun _ _ _ hs h => hs.step h)
    (fun _ _ _ hs h => gate_step hs h) Inv.init.exclusive h

open State in
/-- No upload is stranded in any state of a run in which each change of the limit leaves the queue
covered. -/
theorem always_not_stranded {as : List Action} (hC : Along step RaisesCovered init as) :
    Always step (fun s => ¬ s.Stranded) init as :=
  always_of_along (fun _ _ _ hs hC h => hs.step hC h) (fun _ hs => hs.not_stranded) Inv.init hC

/-- All workers find the queue empty and go to sleep. -/
def sleepRun : List Action :=
  (List.range MAX_UPLOADS).flatMap fun w => [.lock w, .test w, .wait w]

/-- The limit is lowered and raised again while an upload is queued and a worker is on its way: the
worker has passed the guard. -/
theorem always_not_stranded_sleepRun :
    ∃ s, run State.step .init (sleepRun ++ [.setMaxUploads 1, .enqueue, .requestSignal (some 4),
        .requestUnlock, .setMaxUploads 20, .lock 4, .test 4]) = some s ∧
      s.size = 1 ∧ s.workers[4]? = some .taking ∧ ¬ s.Stranded := by
  obtain ⟨s, hs, hend⟩ := Option.map_eq_some_iff.mp
    (show (run State.step .init (sleepRun ++ [.setMaxUploads 1, .enqueue, .requestSignal (some 4),
      .requestUnlock, .setMaxUploads 20, .lock 4, .test 4])).map (fun s => (s.size, s.workers[4]?))
        = some (1, some .taking) by decide +kernel)
  obtain ⟨hsize, hworker⟩ := Prod.mk.inj hend
  exact ⟨s, hs, hsize, hworker,
    always_not_stranded (by decide +kernel) _ s (List.prefix_refl _) hs⟩

/-- The worker that is woken for an upload finds the limit 0 and goes back to sleep; the command
that raises the limit wakes nobody. -/
theorem exists_stranded : ¬ ∀ as s, run State.step .init as = some s → ¬ s.Stranded := by
  intro h
  obtain ⟨s, hs, hstranded⟩ := Option.map_eq_some_iff.mp
    (show (run State.step .init (sleepRun ++ [.setMaxUploads 0, .enqueue, .requestSignal (some 0),
      .requestUnlock, .lock 0, .test 0, .wait 0, .setMaxUploads 20])).map
        (fun s => decide s.Stranded) = some true by decide +kernel)
  exact h _ s hs (of_decide_eq_true hstranded)

end Wakeup

end Pcd
