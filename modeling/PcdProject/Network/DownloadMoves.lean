import PcdProject.Network.DownloadPairing

/-!
# What a step does to the downloads

The calls of `download_file`, their datagrams on the way, the queue of the server and the
connections for which `download_thread` is going to take a job: what each step of the whole does to
them, and that all the server holds of a download comes from the address of its client.
-/

namespace Pcd

open Transition

/-- Where the answer to the download request that is handled goes. -/
def ClientThread.downloadSrc : ClientThread → Option SockAddr
  | .downloadStat _ _ src | .downloadChmod _ _ src _ | .downloadReply _ _ src _
  | .downloadEnqueue _ _ src => some src
  | _ => none

/-- A download is acknowledged and its job not yet in the queue. -/
def ClientThread.queues : ClientThread → Bool
  | .downloadEnqueue .. => true
  | _                   => false

def Action.receives : Action → Bool
  | .client c => c.receives
  | _         => false

namespace DownloadThread

/-- The connection for which the thread is going to take a job. -/
def held : DownloadThread → Option Connection
  | .waiting conn => some conn
  | _             => none

/-- The connection and the job that the thread is going to compare. -/
def compared : DownloadThread → Option (Connection × DownloadJob)
  | .verifying conn job => some (conn, job)
  | _                   => none

end DownloadThread

namespace World

/-- The connections for which `download_thread` is going to take jobs, in this order. -/
def waitingConns (w : World) : List Connection :=
  w.server.downloadThread.held.toList ++ w.server.downloadBacklog

variable {w w' t : World} {a : WorldAction} {b : Action} {o : Origin} {addr : SockAddr}
  {conn : Connection}

/-! ### The clients and the network -/

lemma getElem?_setDownload {i : ℕ} {call : DownloadCall} {phase : DownloadPhase}
    (hcall : w.downloads[i]? = some call) :
    (w.setDownload i phase).downloads[i]? = some { call with phase := phase } := by
  rw [setDownload, List.getElem?_modify, hcall]
  simp

/-- If the origin is a call of `download_file`, its client is at this address. -/
def From (w : World) (o : Origin) (addr : SockAddr) : Prop :=
  ∀ i, o = .download i → ∃ call ∈ w.downloads[i]?, call.addr = addr

/-- The call takes a datagram that is not the answer to its request for one. -/
def Misled (w : World) (a : WorldAction) (i : ℕ) : Prop :=
  ∃ k unset answer, a = .downloadAnswer i k unset ∧ w.toClients[k]? = some answer ∧
    downloadVerdict (answer.reply.datagram unset) = .accept ∧ answer.origin ≠ .download i

/-- The calls keep their addresses, the new datagrams come from them, and a call connects for
something else than the answer to its request only if it is misled. -/
structure DownloadFrame (w : World) (a : WorldAction) (w' : World) : Prop where
  calls    : ∀ (i : ℕ) (call : DownloadCall), w.downloads[i]? = some call →
    ∃ call' : DownloadCall, w'.downloads[i]? = some call' ∧ call'.addr = call.addr
  packets  : ∀ p ∈ w'.toServer, p ∈ w.toServer ∨ w'.From p.origin p.src
  phases   : ∀ (i : ℕ) (call : DownloadCall), w'.downloads[i]? = some call →
    call.phase = .connecting false →
      (∃ call' : DownloadCall, w.downloads[i]? = some call' ∧ call'.phase = .connecting false) ∨
        w.Misled a i
  handling : w'.handling = w.handling ∨ ∃ b ∈ w.serverAction a, b.receives = true

namespace DownloadFrame

lemma same (a : WorldAction) (hd : w'.downloads = w.downloads)
    (hp : ∀ p ∈ w'.toServer, p ∈ w.toServer ∨ w'.From p.origin p.src)
    (hh : w'.handling = w.handling ∨ ∃ b ∈ w.serverAction a, b.receives = true) :
    DownloadFrame w a w' where
  calls    := fun _ call hcall => ⟨call, hd ▸ hcall, rfl⟩
  packets  := hp
  phases   := fun _ call hcall hphase => .inl ⟨call, hd ▸ hcall, hphase⟩
  handling := hh

lemma setDownload {i : ℕ} {phase : DownloadPhase}
    (hd : w'.downloads = (w.setDownload i phase).downloads)
    (hp : ∀ p ∈ w'.toServer, p ∈ w.toServer ∨ w'.From p.origin p.src)
    (hphase : phase = .connecting false → w.Misled a i) (hh : w'.handling = w.handling) :
    DownloadFrame w a w' where
  calls := by
    intro j call hcall
    rw [hd, World.setDownload, List.getElem?_modify, hcall]
    refine ⟨_, rfl, ?_⟩
    split_ifs <;> rfl
  packets := hp
  phases := by
    intro j call' hcall' hphase'
    rw [hd, World.setDownload, List.getElem?_modify] at hcall'
    obtain ⟨call₀, hcall₀, rfl⟩ := Option.map_eq_some_iff.mp hcall'
    split_ifs at hphase' with hij
    · subst hij
      exact .inr (hphase hphase')
    · exact .inl ⟨call₀, hcall₀, hphase'⟩
  handling := .inl hh

/-- A datagram that is on its way on behalf of something else than a download. -/
lemma packets_concat {p : Packet} (ho : ∀ i, p.origin ≠ .download i)
    (hp : w'.toServer = w.toServer ++ [p]) :
    ∀ p ∈ w'.toServer, p ∈ w.toServer ∨ w'.From p.origin p.src := by
  rw [hp]
  intro q hq
  rcases List.mem_append.mp hq with hq | hq
  · exact .inl hq
  · rw [List.mem_singleton.mp hq]
    exact .inr fun i hi => absurd hi (ho i)

lemma of_clientSide (h : w.clientSide a = some w') : DownloadFrame w a w' := by
  cases a with
  | server a =>
    simp only [clientSide] at h
    split_ifs at h
    cases h
    exact same _ rfl (fun _ => .inl) (.inl rfl)
  | deliver k leftOver now newId =>
    obtain ⟨p, hp, rfl⟩ := Option.map_eq_some_iff.mp h
    refine same _ rfl (fun _ hp => .inl (List.mem_of_mem_eraseIdx hp)) (.inr ?_)
    rw [serverAction, hp]
    exact ⟨_, rfl, rfl⟩
  | inject src d =>
    simp only [clientSide] at h
    split_ifs at h
    cases h
    exact same _ rfl (packets_concat (p := ⟨_, _, _⟩) (by simp) rfl) (.inl rfl)
  | uploadStart call =>
    simp only [clientSide] at h
    split_ifs at h
    cases h
    exact same _ rfl (fun _ => .inl) (.inl rfl)
  | uploadSend i ok =>
    simp only [clientSide] at h
    split at h
    · split_ifs at h <;> cases h
      · exact same _ rfl (packets_concat (p := ⟨_, _, _⟩) (by simp) rfl) (.inl rfl)
      · exact same _ rfl (fun _ => .inl) (.inl rfl)
    · cases h
  | uploadTimeout i | uploadConnect i port =>
    simp only [clientSide] at h
    split at h <;> cases h
    exact same _ rfl (fun _ => .inl) (.inl rfl)
  | uploadAnswer i k unset =>
    simp only [clientSide] at h
    split at h
    · split_ifs at h
      cases h
      exact same _ rfl (fun _ => .inl) (.inl rfl)
    · cases h
  | uploadReturn i success =>
    simp only [clientSide] at h
    split at h
    · split_ifs at h
      cases h
      exact same _ rfl (fun _ => .inl) (.inl rfl)
    · cases h
      exact same _ rfl (fun _ => .inl) (.inl rfl)
    · cases h
  | downloadStart call =>
    simp only [clientSide] at h
    split_ifs at h with hbegins
    cases h
    refine ⟨?_, fun _ => .inl, ?_, .inl rfl⟩
    · intro i call' hcall'
      obtain ⟨hlt, -⟩ := List.getElem?_eq_some_iff.mp hcall'
      exact ⟨call', by rwa [List.getElem?_append_left hlt], rfl⟩
    · intro i call' hcall' hphase
      rw [List.getElem?_append] at hcall'
      split_ifs at hcall' with hlt
      · exact .inl ⟨call', hcall', hphase⟩
      · rw [List.mem_singleton.mp (List.mem_of_getElem? hcall'), hbegins.2.2.2.2] at hphase
        cases hphase
  | downloadSend i ok =>
    simp only [clientSide] at h
    split at h
    · rename_i addr pad req filename hcall
      split_ifs at h <;> cases h
      · refine setDownload rfl ?_ (by simp) rfl
        intro p hp
        rcases List.mem_append.mp hp with hp | hp
        · exact .inl hp
        · rw [List.mem_singleton.mp hp]
          right
          rintro j ⟨⟩
          exact ⟨_, getElem?_setDownload hcall, rfl⟩
      · exact setDownload rfl (fun _ => .inl) (by simp) rfl
    · cases h
  | downloadAnswer i k unset =>
    simp only [clientSide] at h
    split at h
    · rename_i addr pad req filename answer hcall hanswer
      split_ifs at h
      cases h
      refine setDownload rfl (fun _ => .inl) ?_ rfl
      intro hphase
      refine ⟨k, unset, answer, rfl, hanswer, ?_⟩
      unfold DownloadPhase.answer at hphase
      split at hphase
      · rename_i haccept
        exact ⟨haccept, by simpa using hphase⟩
      · cases hphase
      · cases hphase
    · cases h
  | downloadConnect i port =>
    simp only [clientSide] at h
    split at h <;> cases h
    exact setDownload rfl (fun _ => .inl) (by simp) rfl
  | downloadReturn i =>
    simp only [clientSide] at h
    split at h <;> cases h
    exact setDownload rfl (fun _ => .inl) (by simp) rfl
  | foreignConnect addr =>
    cases h
    exact same _ rfl (fun _ => .inl) (.inl rfl)

end DownloadFrame

lemma serverAction_download {d : DownloadAction} (hb : w.serverAction a = some (.download d)) :
    a = .server (.download d) := by
  cases a <;> simp_all [serverAction]

/-- A datagram that the server receives was on its way, and its origin is noted. -/
lemma handling_of_receive {buffer : Bytes} {n : ℕ} {src : SockAddr} {now : ℤ} {newId : ClientId}
    (h : w.clientSide a = some w')
    (hb : w.serverAction a = some (.client (.receive buffer n src now newId))) :
    ∃ p ∈ w.toServer, p.origin = w'.handling ∧ p.src = src := by
  cases a with
  | server a =>
    cases hb
    cases h
  | deliver k leftOver now newId =>
    obtain ⟨p, hp, rfl⟩ := Option.map_eq_some_iff.mp h
    rw [serverAction, hp] at hb
    cases hb
    exact ⟨p, List.mem_of_getElem? hp, rfl, rfl⟩
  | uploadConnect i port | downloadConnect i port =>
    obtain ⟨call, -, hcall⟩ := Option.map_eq_some_iff.mp hb
    cases hcall
  | _ => cases hb

lemma server_step (hb : w.serverAction a = some b) (h : w.step a = some t) :
    w.server.step b = some t.server := by
  rcases step_cases h with ⟨hnone, -⟩ | ⟨b', w', hb', -, hframe, ht⟩
  · rw [hnone] at hb
    cases hb
  · obtain rfl : b' = b := Option.some.inj (hb'.symm.trans hb)
    rw [← hframe.server]
    exact serverStep_server ht

lemma receiving_of_step (h : w.step a = some t)
    (hb : ∃ b ∈ w.serverAction a, b.receives = true) : w.server.clientThread = .receiving := by
  obtain ⟨b, hb, hreceives⟩ := hb
  have hstep := server_step hb h
  generalize t.server = s at hstep
  cases b with
  | client c =>
    cases ClientBranch.of_clientStep hstep with
    | receive buffer n src now newId hpc => exact hpc
    | _ => cases hreceives
  | _ => cases hreceives

/-! ### The server -/

lemma moveOrigins_network (w : World) (b : Action) :
    (w.moveOrigins b).downloads = w.downloads ∧ (w.moveOrigins b).toServer = w.toServer ∧
      (w.moveOrigins b).handling = w.handling := by
  unfold moveOrigins
  split
  · split <;> exact ⟨rfl, rfl, rfl⟩
  · exact ⟨rfl, rfl, rfl⟩
  · exact ⟨rfl, rfl, rfl⟩

lemma serverStep_network (h : w.serverStep b = some t) :
    t.downloads = w.downloads ∧ t.toServer = w.toServer ∧ t.handling = w.handling := by
  obtain ⟨s, -, rfl⟩ := Option.map_eq_some_iff.mp h
  exact w.moveOrigins_network b

lemma serverStep_origins (h : w.serverStep b = some t) :
    t.downloadOrigins = (w.moveOrigins b).downloadOrigins ∧
      t.serving = (w.moveOrigins b).serving := by
  obtain ⟨s, -, rfl⟩ := Option.map_eq_some_iff.mp h
  exact ⟨rfl, rfl⟩

/-- What a step of the server does to the downloads: it queues a job, takes one, gets a connection,
or goes on with what is there. -/
inductive DownloadMove (w : World) : Action → World → Prop where
  | enqueue (now : ℤ) (t : World) (req : DownloadRequest) (name : Bytes) (src : SockAddr)
      (hpc : w.server.clientThread = .downloadEnqueue req name src)
      (hpc' : t.server.clientThread = .receiving)
      (horigins : t.downloadOrigins = w.downloadOrigins ++ [w.handling])
      (hqueue : t.server.downloadQueue = w.server.downloadQueue ++ [.create req name src])
      (hthread : t.server.downloadThread = w.server.downloadThread)
      (hbacklog : t.server.downloadBacklog = w.server.downloadBacklog)
      (hserving : t.serving = w.serving) : DownloadMove w (.client (.enqueue now)) t
  | pop (t : World) (conn : Connection) (job : DownloadJob) (queue : List DownloadJob)
      (hpc : w.server.downloadThread = .waiting conn)
      (hpc' : t.server.downloadThread = .verifying conn job)
      (hqueue : w.server.downloadQueue = job :: queue) (hqueue' : t.server.downloadQueue = queue)
      (horigins : t.downloadOrigins = w.downloadOrigins.tail)
      (hserving : t.serving = w.downloadOrigins.headD .other)
      (hclient : t.server.clientThread = w.server.clientThread)
      (hbacklog : t.server.downloadBacklog = w.server.downloadBacklog) :
      DownloadMove w (.download .pop) t
  | goOn (b : Action) (t : World) (new : Option Connection)
      (horigins : t.downloadOrigins = w.downloadOrigins)
      (hqueue : t.server.downloadQueue = w.server.downloadQueue)
      (hconns : t.waitingConns = w.waitingConns ++ new.toList)
      (hnew : ∀ conn ∈ new, b = .connectDownload conn)
      (hserves : ∀ conn ∈ t.server.downloadThread.serves, conn ∈ w.server.downloadThread.serves)
      (hcompared : ∀ p ∈ t.server.downloadThread.compared, p ∈ w.server.downloadThread.compared)
      (hserving : t.serving = w.serving)
      (hqueues : w.server.clientThread.queues = true → t.server.clientThread.queues = true)
      (hsrc : ∀ src ∈ t.server.clientThread.downloadSrc,
        src ∈ w.server.clientThread.downloadSrc ∨
          ∃ buffer n now newId, b = .client (.receive buffer n src now newId)) :
      DownloadMove w b t

namespace DownloadMove

/-- `download_thread` and its queue stay as they are. -/
lemma rest {s : Server} (h : w.serverStep b = some t) (hs : t.server = s)
    (hmove : w.moveOrigins b = w) (hqueue : s.downloadQueue = w.server.downloadQueue)
    (hthread : s.downloadThread = w.server.downloadThread)
    (hbacklog : s.downloadBacklog = w.server.downloadBacklog)
    (hqueues : w.server.clientThread.queues = true → s.clientThread.queues = true)
    (hsrc : ∀ src ∈ s.clientThread.downloadSrc, src ∈ w.server.clientThread.downloadSrc ∨
      ∃ buffer n now newId, b = .client (.receive buffer n src now newId)) :
    DownloadMove w b t := by
  obtain ⟨horigins, hserving⟩ := serverStep_origins h
  rw [hmove] at horigins hserving
  subst hs
  refine .goOn b t none horigins hqueue ?_ (by rintro conn ⟨⟩) ?_ ?_ hserving hqueues hsrc
  · rw [waitingConns, waitingConns, hthread, hbacklog]
    exact (List.append_nil _).symm
  · rw [hthread]
    exact fun _ => id
  · rw [hthread]
    exact fun _ => id

lemma of_client {c : ClientAction} (h : w.serverStep (.client c) = some t) :
    DownloadMove w (.client c) t := by
  have hstep := serverStep_server h
  generalize hs : t.server = s at hstep
  cases ClientBranch.of_clientStep hstep with
  | receive buffer n src now newId hpc hsize =>
    have hidle : ∀ P : Prop, w.server.clientThread.queues = true → P := by
      rw [hpc]
      rintro P ⟨⟩
    generalize readRequest buffer n = req at hs
    cases req with
    | none => exact rest h hs rfl rfl rfl rfl (hidle _) fun _ => .inl
    | some req =>
      cases req with
      | clientId | heartbeat => exact rest h hs rfl rfl rfl rfl (hidle _) fun _ => .inl
      | job | upload =>
        refine rest h hs rfl rfl rfl rfl (hidle _) ?_
        rintro src ⟨⟩
      | download req name =>
        refine rest h hs rfl rfl rfl rfl (hidle _) ?_
        rintro _ ⟨⟩
        exact .inr ⟨buffer, n, now, newId, rfl⟩
  | enqueueDownload req name src now hpc =>
    obtain ⟨horigins, hserving⟩ := serverStep_origins h
    have hmove : w.moveOrigins (.client (.enqueue now))
        = { w with downloadOrigins := w.downloadOrigins ++ [w.handling] } := by
      simp only [moveOrigins, hpc]
    rw [hmove] at horigins hserving
    exact .enqueue now t req name src hpc (by rw [hs]) horigins (by rw [hs]) (by rw [hs])
      (by rw [hs]) hserving
  | enqueueUpload req name src now hpc =>
    refine rest h hs ?_ rfl rfl rfl (by rw [hpc]; rintro ⟨⟩) ?_
    · simp only [moveOrigins, hpc]
    · rintro src ⟨⟩
  | downloadStat _ _ _ _ hpc | downloadChmod _ _ _ _ _ hpc | downloadReply _ _ _ _ _ hpc =>
    refine rest h hs rfl rfl rfl rfl (by rw [hpc]; rintro ⟨⟩) ?_
    rw [hpc]
    exact fun _ => .inl
  | isDirectory _ _ _ _ hpc | notDirectory _ _ _ _ hpc | missing _ _ _ hpc | mkdir _ _ _ hpc
  | mkdirFail _ _ _ hpc | append _ _ _ _ hpc | appendFail _ _ _ _ hpc | jobReply _ _ _ hpc
  | jobReplyFail _ _ _ hpc | uploadReply _ _ _ _ hpc | downloadMissing _ _ _ hpc =>
    refine rest h hs rfl rfl rfl rfl (by rw [hpc]; rintro ⟨⟩) ?_
    rintro src ⟨⟩

lemma of_download {d : DownloadAction} (h : w.serverStep (.download d) = some t) :
    DownloadMove w (.download d) t := by
  have hstep := serverStep_server h
  obtain ⟨horigins, hserving⟩ := serverStep_origins h
  generalize hs : t.server = s at hstep
  -- a step that leaves the queue and the connections that wait
  have keep : w.moveOrigins (.download d) = w → s.downloadQueue = w.server.downloadQueue →
      s.downloadThread.held.toList ++ s.downloadBacklog = w.waitingConns →
      (∀ conn ∈ s.downloadThread.serves, conn ∈ w.server.downloadThread.serves) →
      (∀ p ∈ s.downloadThread.compared, p ∈ w.server.downloadThread.compared) →
      s.clientThread = w.server.clientThread → DownloadMove w (.download d) t := by
    intro hmove hqueue hconns hserves hcompared hclient
    rw [hmove] at horigins hserving
    subst hs
    refine .goOn _ t none horigins hqueue ?_ (by rintro conn ⟨⟩) hserves hcompared hserving ?_ ?_
    · rw [← hconns]
      exact (List.append_nil _).symm
    · rw [hclient]
      exact id
    · rw [hclient]
      exact fun _ => .inl
  cases DownloadRule.of_downloadStep hstep with
  | pop conn job queue hpc hqueue =>
    exact .pop t conn job queue hpc (by rw [hs]) hqueue (by rw [hs]) horigins hserving (by rw [hs])
      (by rw [hs])
  | accept conn backlog hpc hconn =>
    refine keep rfl rfl ?_ (by rintro conn ⟨⟩) (by rintro p ⟨⟩) rfl
    rw [waitingConns, hpc, hconn]
    rfl
  | acceptFail hpc => exact keep rfl rfl rfl (fun _ => id) (fun _ => id) rfl
  | valid conn job hpc hvalid =>
    refine keep rfl rfl ?_ ?_ (by rintro p ⟨⟩) rfl
    · rw [waitingConns, hpc]
      rfl
    · rw [hpc]
      exact fun _ => id
  | openFile conn job hpc | openFail conn job hpc | finish conn job hpc | invalid conn job hpc =>
    refine keep rfl rfl ?_ (by rintro conn ⟨⟩) (by rintro p ⟨⟩) rfl
    rw [waitingConns, hpc]
    rfl

lemma of_serverStep (h : w.serverStep b = some t) : DownloadMove w b t := by
  have hstep := serverStep_server h
  generalize hs : t.server = s at hstep
  cases SystemRule.of_step hstep with
  | client c => exact of_client h
  | worker i c _ hc =>
    cases hc <;> exact rest h hs rfl rfl rfl rfl id fun _ => .inl
  | processing c _ hc =>
    cases hc <;> exact rest h hs rfl rfl rfl rfl id fun _ => .inl
  | sweep | kick | limit | limitIgnored | connectUpload =>
    exact rest h hs rfl rfl rfl rfl id fun _ => .inl
  | connectDownload conn =>
    obtain ⟨horigins, hserving⟩ := serverStep_origins h
    refine .goOn _ t (some conn) horigins (by rw [hs]) ?_ ?_ (by rw [hs]; exact fun _ => id)
      (by rw [hs]; exact fun _ => id) hserving (by rw [hs]; exact id)
      (by rw [hs]; exact fun _ => .inl)
    · rw [waitingConns, waitingConns, hs]
      exact (List.append_assoc _ _ _).symm
    · rintro _ ⟨⟩
      rfl
  | download c _ hc => exact of_download h

end DownloadMove

/-! ### The addresses of the clients -/

lemma From.of_calls (hcalls : ∀ (i : ℕ) (call : DownloadCall), w.downloads[i]? = some call →
    ∃ call' : DownloadCall, t.downloads[i]? = some call' ∧ call'.addr = call.addr)
    (h : w.From o addr) : t.From o addr := by
  intro i hi
  obtain ⟨call, hcall, rfl⟩ := h i hi
  exact hcalls i call hcall

/-- What the server holds of a download comes from the address of its client. -/
structure Addressed (w : World) : Prop where
  packets  : ∀ p ∈ w.toServer, w.From p.origin p.src
  handling : ∀ src ∈ w.server.clientThread.downloadSrc, w.From w.handling src
  queue    : List.Forall₂ (fun o job => w.From o job.clientAddr) w.downloadOrigins
    w.server.downloadQueue
  compared : ∀ p ∈ w.server.downloadThread.compared, w.From w.serving p.2.clientAddr

namespace Addressed

lemma init (dir : Bytes) : (World.init dir).Addressed where
  packets  := by rintro p ⟨⟩
  handling := by rintro src ⟨⟩
  queue    := .nil
  compared := by rintro p ⟨⟩

lemma of_clientSide (hw : w.Addressed) (h : w.clientSide a = some w')
    (hidle : (∃ b ∈ w.serverAction a, b.receives = true) → w.server.clientThread = .receiving) :
    w'.Addressed := by
  have hframe := ClientFrame.of_clientSide h
  obtain ⟨hcalls, hpackets, -, hhandling⟩ := DownloadFrame.of_clientSide h
  have mono : ∀ {o addr}, w.From o addr → w'.From o addr := fun hfrom => hfrom.of_calls hcalls
  refine ⟨?_, ?_, ?_, ?_⟩
  · intro p hp
    rcases hpackets p hp with hp | hp
    · exact mono (hw.packets p hp)
    · exact hp
  · rw [hframe.server]
    intro src hsrc
    rcases hhandling with hsame | hreceives
    · rw [hsame]
      exact mono (hw.handling src hsrc)
    · rw [hidle hreceives] at hsrc
      cases hsrc
  · rw [hframe.origins, hframe.server]
    exact hw.queue.imp fun _ _ => mono
  · rw [hframe.server, hframe.serving]
    exact fun p hp => mono (hw.compared p hp)

lemma of_move (hw : w.Addressed) (h : w.serverStep b = some t)
    (hreceive : ∀ buffer n src now newId, b = .client (.receive buffer n src now newId) →
      w.From w.handling src) : t.Addressed := by
  obtain ⟨hdownloads, htoServer, hhandling⟩ := serverStep_network h
  have mono : ∀ {o addr}, w.From o addr → t.From o addr :=
    fun hfrom => hfrom.of_calls (by rw [hdownloads]; exact fun _ call hcall => ⟨call, hcall, rfl⟩)
  have hpackets : ∀ p ∈ t.toServer, t.From p.origin p.src := by
    rw [htoServer]
    exact fun p hp => mono (hw.packets p hp)
  cases DownloadMove.of_serverStep h with
  | enqueue now _ req name src hpc hpc' horigins hqueue hthread hbacklog hserving =>
    refine ⟨hpackets, ?_, ?_, ?_⟩
    · rw [hpc']
      rintro src ⟨⟩
    · rw [horigins, hqueue]
      refine List.rel_append (hw.queue.imp fun _ _ => mono) (.cons ?_ .nil)
      exact mono (hw.handling src (by rw [hpc]; rfl))
    · rw [hthread, hserving]
      exact fun p hp => mono (hw.compared p hp)
  | pop _ conn job queue hpc hpc' hqueue hqueue' horigins hserving hclient hbacklog =>
    have hforall := hw.queue
    rw [hqueue] at hforall
    obtain ⟨o, os, hjob, hos, horigins₀⟩ := List.forall₂_cons_right_iff.mp hforall
    rw [horigins₀] at horigins hserving
    refine ⟨hpackets, ?_, ?_, ?_⟩
    · rw [hclient, hhandling]
      exact fun src hsrc => mono (hw.handling src hsrc)
    · rw [horigins, hqueue']
      exact hos.imp fun _ _ => mono
    · rw [hpc', hserving]
      rintro _ ⟨⟩
      exact mono hjob
  | goOn _ _ new horigins hqueue hconns hnew hserves hcompared hserving hqueues hsrc =>
    refine ⟨hpackets, ?_, ?_, ?_⟩
    · intro src hin
      rw [hhandling]
      rcases hsrc src hin with hin | ⟨buffer, n, now, newId, hb⟩
      · exact mono (hw.handling src hin)
      · exact mono (hreceive buffer n src now newId hb)
    · rw [horigins, hqueue]
      exact hw.queue.imp fun _ _ => mono
    · rw [hserving]
      exact fun p hp => mono (hw.compared p (hcompared p hp))

lemma step (hw : w.Addressed) (h : w.step a = some t) : t.Addressed := by
  obtain ⟨w', hw', ht⟩ := Option.bind_eq_some_iff.mp h
  have hmid := hw.of_clientSide hw' (receiving_of_step h)
  cases hb : w.serverAction a with
  | none =>
    rw [hb] at ht
    exact Option.some.inj ht ▸ hmid
  | some b =>
    rw [hb] at ht
    refine hmid.of_move ht ?_
    rintro buffer n src now newId rfl
    obtain ⟨p, hp, horigin, rfl⟩ := handling_of_receive hw' hb
    rw [← horigin]
    exact (hw.packets p hp).of_calls (DownloadFrame.of_clientSide hw').calls

/-- Every queued job has its origin. -/
lemma exists_origin (hw : w.Addressed) {job : DownloadJob} {queue : List DownloadJob}
    (hqueue : w.server.downloadQueue = job :: queue) : ∃ o os, w.downloadOrigins = o :: os := by
  have hlen := hw.queue.length_eq
  rw [hqueue] at hlen
  exact List.exists_cons_of_length_eq_add_one hlen

end Addressed

end World

end Pcd
