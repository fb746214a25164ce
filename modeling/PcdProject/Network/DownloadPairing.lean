import PcdProject.Network.UploadPairing

/-!
# Connections and download jobs

`download_thread` accepts whatever connection comes first, removes whatever job is at the head of
the queue and only then compares the two. Here is what it means that the removed jobs are served to
their clients, and what each iteration needs for it.
-/

namespace Pcd

open Transition

/-- The label of the connections on which the job with this origin may be served. -/
def Origin.label : Origin → Option DownloadLabel
  | .download i => some ⟨i, true⟩
  | _           => none

/-- The connection was opened for the request, after the answer to it. -/
def Origin.Owns (o : Origin) (label : Option DownloadLabel) : Prop :=
  label.isSome ∧ label = o.label

/-- What an observer sees of `download_thread`. -/
inductive DownloadEvent where
  | removed (origin : Origin)
  | served (origin : Origin) (label : Option DownloadLabel)
  deriving DecidableEq

namespace DownloadEvent

def removed? : DownloadEvent → Option Origin
  | .removed origin  => some origin
  | .served _ _      => none

def served? : DownloadEvent → Option (Origin × Option DownloadLabel)
  | .removed _            => none
  | .served origin label  => some (origin, label)

end DownloadEvent

/-- The connection on which `download_thread` is going to serve the job that it removed. -/
def DownloadThread.serves : DownloadThread → Option Connection
  | .verifying conn _ | .opening conn _ => some conn
  | _ => none

namespace World

def labelOf (w : World) (conn : Connection) : Option DownloadLabel :=
  (w.downloadConns[conn.id]?).join

def downloadEvents (w : World) (a : WorldAction) : List DownloadEvent :=
  match w.serverAction a with
  | some (.download .pop)             => [.removed (w.downloadOrigins.headD .other)]
  | some (.download (.openFile true)) =>
    match w.server.downloadThread with
    | .opening conn _ => [.served w.serving (w.labelOf conn)]
    | _               => []
  | _ => []

/-- The job that is removed from the queue and neither served nor dropped. -/
def inService (w : World) : List Origin :=
  w.server.downloadThread.serves.elim [] fun _ => [w.serving]

/-- Every removed job is served, the last one perhaps not yet, and to a connection of its own. -/
def ServedOwn (w : World) (events : List DownloadEvent) : Prop :=
  events.filterMap DownloadEvent.removed? =
      (events.filterMap DownloadEvent.served?).map Prod.fst ++ w.inService ∧
    ∀ e ∈ events.filterMap DownloadEvent.served?, e.1.Owns e.2

/-! ### What an iteration needs -/

/-- The connection with which `download_thread` waits and the job that it removes. -/
def paired (w : World) (a : WorldAction) : Option (Connection × Origin) :=
  match w.serverAction a with
  | some (.download .pop) =>
    match w.server.downloadThread with
    | .waiting conn => some (conn, w.downloadOrigins.headD .other)
    | _             => none
  | _ => none

/-- The connection and the job that `download_thread` compares. -/
def verified (w : World) (a : WorldAction) : Option (Connection × DownloadJob) :=
  match w.serverAction a with
  | some (.download .verify) =>
    match w.server.downloadThread with
    | .verifying conn job => some (conn, job)
    | _                   => none
  | _ => none

def failsToOpen (w : World) (a : WorldAction) : Bool :=
  match w.serverAction a with
  | some (.download (.openFile ok)) => !ok
  | _ => false

/-- A job is removed only for a connection of its own, the client of the job is registered with the
address of the connection, and the file can be opened. -/
def ServesOwn (w : World) (a : WorldAction) : Prop :=
  (∀ p ∈ w.paired a, p.2.Owns (w.labelOf p.1)) ∧
    (∀ p ∈ w.verified a, clientValid w.server.clients p.2 p.1 = true) ∧ w.failsToOpen a = false

/-! ### The invariant -/

variable {w w' t : World} {a : WorldAction} {events : List DownloadEvent}

/-- A label stays on its connection. -/
lemma labelOf_step {conn : Connection} (hlabel : (w.labelOf conn).isSome) (h : w.step a = some t) :
    t.labelOf conn = w.labelOf conn := by
  obtain ⟨-, tail, htail⟩ := step_conns h
  have hlt : conn.id < w.downloadConns.length := by
    by_contra hge
    rw [labelOf, List.getElem?_eq_none (not_lt.mp hge)] at hlabel
    simp at hlabel
  rw [labelOf, labelOf, ← htail, List.getElem?_append_left hlt]

/-- The origin of the last removed job after a step of the server. -/
lemma moveOrigins_serving (b : Action) (hb : b ≠ .download .pop) :
    (w.moveOrigins b).serving = w.serving := by
  unfold moveOrigins
  split
  · split <;> rfl
  · exact absurd rfl hb
  · rfl

structure DownloadInv (w : World) (events : List DownloadEvent) : Prop where
  served : w.ServedOwn events
  own    : ∀ conn ∈ w.server.downloadThread.serves, w.serving.Owns (w.labelOf conn)

namespace DownloadInv

lemma init (dir : Bytes) : (World.init dir).DownloadInv [] where
  served := ⟨rfl, by simp⟩
  own    := by rintro conn ⟨⟩

/-- A step without an event that leaves `download_thread` with its connection and its job. -/
lemma quiet (hw : w.DownloadInv events) (h : w.step a = some t)
    (hserves : t.server.downloadThread.serves = w.server.downloadThread.serves)
    (hserving : t.serving = w.serving) (hevents : w.downloadEvents a = []) :
    t.DownloadInv (events ++ w.downloadEvents a) := by
  obtain ⟨⟨hremoved, hserved⟩, hown⟩ := hw
  rw [hevents, List.append_nil]
  refine ⟨⟨?_, hserved⟩, ?_⟩
  · rw [hremoved, inService, inService, hserves, hserving]
  · intro conn hconn
    rw [hserves] at hconn
    rw [hserving, labelOf_step (hown conn hconn).1 h]
    exact hown conn hconn

lemma pop {conn : Connection} {job : DownloadJob} (hw : w.DownloadInv events)
    (hC : w.ServesOwn a) (h : w.step a = some t) (hb : w.serverAction a = some (.download .pop))
    (hpc : w.server.downloadThread = .waiting conn)
    (hpc' : t.server.downloadThread = .verifying conn job)
    (hserving : t.serving = w.downloadOrigins.headD .other) :
    t.DownloadInv (events ++ w.downloadEvents a) := by
  obtain ⟨⟨hremoved, hserved⟩, -⟩ := hw
  have hown := hC.1 (conn, w.downloadOrigins.headD .other) (by simp [paired, hb, hpc])
  have hevents : w.downloadEvents a = [.removed (w.downloadOrigins.headD .other)] := by
    simp only [downloadEvents, hb]
  rw [hevents]
  refine ⟨⟨?_, ?_⟩, ?_⟩
  · simpa [hpc, hpc', inService, DownloadThread.serves, DownloadEvent.removed?,
      DownloadEvent.served?, hserving, List.filterMap_cons] using hremoved
  · simpa [DownloadEvent.served?] using hserved
  · intro conn' hconn
    rw [hpc'] at hconn
    cases hconn
    rw [hserving, labelOf_step hown.1 h]
    exact hown

lemma serve {conn : Connection} {job : DownloadJob} (hw : w.DownloadInv events)
    (hb : w.serverAction a = some (.download (.openFile true)))
    (hpc : w.server.downloadThread = .opening conn job)
    (hpc' : t.server.downloadThread = .sending conn job) :
    t.DownloadInv (events ++ w.downloadEvents a) := by
  obtain ⟨⟨hremoved, hserved⟩, hown⟩ := hw
  have hlabel := hown conn (by rw [hpc]; rfl)
  have hevents : w.downloadEvents a = [.served w.serving (w.labelOf conn)] := by
    simp only [downloadEvents, hb, hpc]
  rw [hevents]
  refine ⟨⟨?_, ?_⟩, ?_⟩
  · simpa [hpc, hpc', inService, DownloadThread.serves, DownloadEvent.removed?,
      DownloadEvent.served?, List.filterMap_cons] using hremoved
  · simp only [List.filterMap_append, List.mem_append]
    rintro e (he | he)
    · exact hserved e he
    · simp [DownloadEvent.served?] at he
      exact he ▸ hlabel
  · simp [hpc', DownloadThread.serves]

lemma step (hw : w.DownloadInv events) (hC : w.ServesOwn a) (h : w.step a = some t) :
    t.DownloadInv (events ++ w.downloadEvents a) := by
  rcases step_cases h with ⟨hnone, hframe⟩ | ⟨b, w', hb, -, hframe, ht⟩
  · exact hw.quiet h (by rw [hframe.server]) hframe.serving (by simp only [downloadEvents, hnone])
  · obtain ⟨s, hs, rfl⟩ := Option.map_eq_some_iff.mp ht
    rw [hframe.server] at hs
    have keep : b ≠ .download .pop → (w'.moveOrigins b).serving = w.serving := by
      intro hne
      exact (moveOrigins_serving b hne).trans hframe.serving
    cases SystemRule.of_step hs with
    | download d _ hd =>
      cases hd with
      | pop conn job queue hpc hqueue =>
        exact hw.pop hC h hb hpc rfl (by rw [← hframe.origins]; rfl)
      | openFile conn job hpc => exact hw.serve hb hpc rfl
      | invalid conn job hpc hinvalid =>
        have hvalid := hC.2.1 (conn, job) (by simp [verified, hb, hpc])
        simp [hinvalid] at hvalid
      | openFail conn job hpc =>
        have hopens := hC.2.2
        simp [failsToOpen, hb] at hopens
      | accept conn backlog hpc hconn =>
        exact hw.quiet h (by rw [hpc]; rfl) (keep (by simp)) (by simp only [downloadEvents, hb])
      | acceptFail hpc => exact hw.quiet h rfl (keep (by simp)) (by simp only [downloadEvents, hb])
      | valid conn job hpc hvalid =>
        exact hw.quiet h (by rw [hpc]; rfl) (keep (by simp)) (by simp only [downloadEvents, hb])
      | finish conn job hpc =>
        exact hw.quiet h (by rw [hpc]; rfl) (keep (by simp)) (by simp only [downloadEvents, hb])
    | client a _ hd =>
      cases hd <;>
        exact hw.quiet h rfl (keep (by simp)) (by simp only [downloadEvents, hb])
    | worker i a _ hd =>
      cases hd <;> exact hw.quiet h rfl (keep (by simp)) (by simp only [downloadEvents, hb])
    | processing a _ hd =>
      cases hd <;> exact hw.quiet h rfl (keep (by simp)) (by simp only [downloadEvents, hb])
    | sweep | kick | limit | limitIgnored | connectUpload | connectDownload =>
      exact hw.quiet h rfl (keep (by simp)) (by simp only [downloadEvents, hb])

end DownloadInv

end World

end Pcd
