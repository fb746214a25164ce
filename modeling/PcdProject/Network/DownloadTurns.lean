import PcdProject.Core.QueuePairing
import PcdProject.Network.DownloadMoves

/-!
# Downloads in turn

`download_thread` takes the first connection together with the first job. The two belong together
if every client connects when its job is the first one without a connection, and no other host
connects at all. That the comparison succeeds then follows from the addresses, as long as the
client stays registered.
-/

namespace Pcd

open Transition QueuePairing

namespace World

/-- The acknowledged requests whose jobs `download_thread` is going to take, in this order. -/
def downloadTurns (w : World) : List Origin :=
  w.downloadOrigins ++ if w.server.clientThread.queues then [w.handling] else []

/-- A client whose request was acknowledged connects when its job is the first one without a
connection. No other host connects. A call that waits accepts only the answer to its own request.
When `download_thread` compares, the client of the job is registered with the address from which it
sent the request. The file can be opened. -/
def DownloadsInTurn (w : World) : WorldAction → Prop
  | .downloadConnect i _ => w.downloadTurns[w.waitingConns.length]? = some (.download i)
  | .foreignConnect _    => False
  | .downloadAnswer i k unset =>
    ∀ answer ∈ w.toClients[k]?, downloadVerdict (answer.reply.datagram unset) = .accept →
      answer.origin = .download i
  | .server (.download .verify) =>
    ∀ p ∈ w.server.downloadThread.compared, ∃ c ∈ w.server.clients,
      c.clientId = p.2.clientId ∧ c.addr.ip = p.2.clientAddr.ip
  | .server (.download (.openFile ok)) => ok = true
  | _ => True

instance (w : World) (a : WorldAction) : Decidable (w.DownloadsInTurn a) :=
  match a with
  | .downloadConnect i _ =>
    inferInstanceAs (Decidable (w.downloadTurns[w.waitingConns.length]? = some (.download i)))
  | .foreignConnect _    => .isFalse id
  | .downloadAnswer i k _ =>
    inferInstanceAs (Decidable (∀ answer ∈ w.toClients[k]?, _ → answer.origin = .download i))
  | .server (.download .verify) =>
    inferInstanceAs (Decidable (∀ p ∈ w.server.downloadThread.compared, ∃ c ∈ w.server.clients, _))
  | .server (.download (.openFile ok)) => inferInstanceAs (Decidable (ok = true))
  | .server (.download (.accept _)) | .server (.download .pop) | .server (.download .finish)
  | .server (.client _) | .server (.worker _ _) | .server (.processing _) | .server (.sweep _)
  | .server (.setMaxUploads _) | .server (.kick _) | .server (.connectUpload _)
  | .server (.connectDownload _) | .deliver .. | .inject .. | .uploadStart _ | .uploadSend ..
  | .uploadTimeout _ | .uploadAnswer .. | .uploadConnect .. | .uploadReturn .. | .downloadStart _
  | .downloadSend .. | .downloadReturn _ => .isTrue trivial

variable {w w' t : World} {a : WorldAction} {b : Action} {o : Origin} {conn : Connection}

/-! ### The invariant -/

/-- The connection was opened for the request, after the answer to it, from the address of its
client. -/
def ConnectedFor (w : World) (conn : Connection) (o : Origin) : Prop :=
  ∃ i, o = .download i ∧ w.labelOf conn = some ⟨i, true⟩ ∧
    ∃ call ∈ w.downloads[i]?, call.addr.ip = conn.addr.ip

/-- The connections that wait were opened for the jobs that will be taken for them, and the one
that `download_thread` serves for the job that it took. -/
structure DownloadsMatched (w : World) : Prop where
  answered : ∀ (i : ℕ) (call : DownloadCall), w.downloads[i]? = some call →
    call.phase ≠ .connecting false
  matched  : Matched w.ConnectedFor w.waitingConns w.downloadTurns
  serving  : ∀ conn ∈ w.server.downloadThread.serves, w.ConnectedFor conn w.serving

namespace DownloadsMatched

lemma init (dir : Bytes) : (World.init dir).DownloadsMatched where
  answered := by rintro i call ⟨⟩
  matched  := .nil
  serving  := by rintro conn ⟨⟩

lemma mono_connectedFor (hconns : w.downloadConns <+: t.downloadConns)
    (hcalls : ∀ (i : ℕ) (call : DownloadCall), w.downloads[i]? = some call →
      ∃ call' : DownloadCall, t.downloads[i]? = some call' ∧ call'.addr = call.addr)
    (h : w.ConnectedFor conn o) : t.ConnectedFor conn o := by
  obtain ⟨i, rfl, hlabel, call, hcall, hip⟩ := h
  obtain ⟨call', hcall', haddr⟩ := hcalls i call hcall
  refine ⟨i, rfl, ?_, call', hcall', haddr ▸ hip⟩
  obtain ⟨hlt, -⟩ := List.getElem?_eq_some_iff.mp (Option.join_eq_some_iff.mp hlabel)
  obtain ⟨new, hnew⟩ := hconns
  rw [labelOf, ← hnew, List.getElem?_append_left hlt]
  exact hlabel

/-- The clients and the network leave the jobs and the connections of the server in their order. -/
lemma downloadTurns_clientSide (h : w.clientSide a = some w')
    (hidle : (∃ b ∈ w.serverAction a, b.receives = true) → w.server.clientThread = .receiving) :
    w'.downloadTurns = w.downloadTurns := by
  have hframe := ClientFrame.of_clientSide h
  rw [downloadTurns, downloadTurns, hframe.origins, hframe.server]
  rcases (DownloadFrame.of_clientSide h).handling with hsame | hreceives
  · rw [hsame]
  · rw [hidle hreceives]
    rfl

lemma of_clientSide (hw : w.DownloadsMatched) (hC : w.DownloadsInTurn a)
    (h : w.clientSide a = some w')
    (hidle : (∃ b ∈ w.serverAction a, b.receives = true) → w.server.clientThread = .receiving) :
    w'.DownloadsMatched := by
  have hframe := ClientFrame.of_clientSide h
  obtain ⟨hcalls, -, hphases, -⟩ := DownloadFrame.of_clientSide h
  refine ⟨?_, ?_, ?_⟩
  · intro i call hcall hphase
    rcases hphases i call hcall hphase with ⟨call', hcall', hphase'⟩ | hmisled
    · exact hw.answered i call' hcall' hphase'
    · obtain ⟨k, unset, answer, rfl, hanswer, haccept, hother⟩ := hmisled
      exact hother (hC answer hanswer haccept)
  · rw [downloadTurns_clientSide h hidle, waitingConns, hframe.server]
    exact hw.matched.mono fun _ _ => mono_connectedFor hframe.downloadConns hcalls
  · rw [hframe.server, hframe.serving]
    exact fun conn hconn => mono_connectedFor hframe.downloadConns hcalls (hw.serving conn hconn)

lemma of_move (hw : w.DownloadsMatched) (hA : w.Addressed) (h : w.serverStep b = some t)
    (hconnect : ∀ conn, b = .connectDownload conn →
      ∃ o, w.downloadTurns[w.waitingConns.length]? = some o ∧ w.ConnectedFor conn o) :
    t.DownloadsMatched := by
  obtain ⟨hdownloads, -, hhandling⟩ := serverStep_network h
  have mono : ∀ {conn o}, w.ConnectedFor conn o → t.ConnectedFor conn o := by
    refine fun hfor => mono_connectedFor ?_ ?_ hfor
    · rw [(serverStep_conns h).2]
    · rw [hdownloads]
      exact fun _ call hcall => ⟨call, hcall, rfl⟩
  have hanswered : ∀ (i : ℕ) (call : DownloadCall), t.downloads[i]? = some call →
      call.phase ≠ .connecting false := by
    rw [hdownloads]
    exact hw.answered
  cases DownloadMove.of_serverStep h with
  | enqueue now _ req name src hpc hpc' horigins hqueue hthread hbacklog hserving =>
    refine ⟨hanswered, ?_, ?_⟩
    · have hturns : t.downloadTurns = w.downloadTurns := by
        rw [downloadTurns, downloadTurns, hpc, hpc', horigins]
        simp [ClientThread.queues]
      rw [hturns, waitingConns, hthread, hbacklog]
      exact hw.matched.mono fun _ _ => mono
    · rw [hthread, hserving]
      exact fun conn hconn => mono (hw.serving conn hconn)
  | pop _ conn job queue hpc hpc' hqueue hqueue' horigins hserving hclient hbacklog =>
    obtain ⟨o, os, horigins₀⟩ := hA.exists_origin hqueue
    have hmatched := hw.matched.mono (S := t.ConnectedFor) fun _ _ => mono
    rw [waitingConns, downloadTurns, hpc, horigins₀] at hmatched
    rw [horigins₀] at horigins hserving
    refine ⟨hanswered, ?_, ?_⟩
    · rw [waitingConns, downloadTurns, hpc', hbacklog, horigins, hclient, hhandling]
      exact hmatched.tail
    · rw [hpc', hserving]
      rintro _ ⟨⟩
      exact hmatched.head
  | goOn _ _ new horigins hqueue hconns hnew hserves hcompared hserving hqueues hsrc =>
    have hturns : w.downloadTurns <+: t.downloadTurns := by
      rw [downloadTurns, downloadTurns, horigins, hhandling]
      split_ifs with hq hq'
      · exact List.prefix_refl _
      · exact absurd (hqueues hq) hq'
      · rw [List.append_nil]
        exact List.prefix_append _ _
      · exact List.prefix_refl _
    refine ⟨hanswered, ?_, ?_⟩
    · rw [hconns]
      cases new with
      | none =>
        rw [Option.toList_none, List.append_nil]
        exact (hw.matched.mono fun _ _ => mono).extend hturns
      | some conn =>
        obtain ⟨o, ho, hfor⟩ := hconnect conn (hnew conn rfl)
        exact ((hw.matched.concat ho hfor).mono fun _ _ => mono).extend hturns
    · rw [hserving]
      exact fun conn hconn => mono (hw.serving conn (hserves conn hconn))

/-- A connection that comes when the condition holds is that of the client whose turn it is. -/
lemma of_connect (hw : w.DownloadsMatched) (hC : w.DownloadsInTurn a)
    (h : w.clientSide a = some w') (hb : w.serverAction a = some (.connectDownload conn)) :
    ∃ o, w.downloadTurns[w.waitingConns.length]? = some o ∧ w'.ConnectedFor conn o := by
  cases a with
  | server a =>
    cases hb
    cases h
  | foreignConnect addr => exact hC.elim
  | downloadConnect i port =>
    obtain ⟨call, hcall, hconn⟩ := Option.map_eq_some_iff.mp hb
    cases hconn
    simp only [clientSide] at h
    split at h <;> cases h
    rename_i addr pad req filename answered hcall'
    rw [hcall'] at hcall
    cases hcall
    have hanswered : answered = true := by
      by_contra hfalse
      rw [Bool.not_eq_true] at hfalse
      exact hw.answered i _ hcall' (congrArg _ hfalse)
    subst hanswered
    refine ⟨.download i, hC, i, rfl, ?_, _, getElem?_setDownload hcall', rfl⟩
    rw [labelOf, List.getElem?_concat_length]
    rfl
  | _ => simp [serverAction] at hb

lemma step (hw : w.DownloadsMatched) (hA : w.Addressed) (hC : w.DownloadsInTurn a)
    (h : w.step a = some t) : t.DownloadsMatched := by
  obtain ⟨w', hw', ht⟩ := Option.bind_eq_some_iff.mp h
  have hidle := receiving_of_step h
  have hmid := hw.of_clientSide hC hw' hidle
  cases hb : w.serverAction a with
  | none =>
    rw [hb] at ht
    exact Option.some.inj ht ▸ hmid
  | some b =>
    rw [hb] at ht
    refine hmid.of_move (hA.of_clientSide hw' hidle) ht ?_
    rintro conn rfl
    rw [downloadTurns_clientSide hw' hidle, waitingConns, (ClientFrame.of_clientSide hw').server]
    exact hw.of_connect hC hw' hb

/-- The job that is removed is that of the connection for which `download_thread` waits, and the
comparison succeeds. -/
lemma servesOwn (hw : w.DownloadsMatched) (hA : w.Addressed) (hC : w.DownloadsInTurn a)
    (h : w.step a = some t) : w.ServesOwn a := by
  refine ⟨?_, ?_, ?_⟩
  · intro p hp
    unfold paired at hp
    split at hp
    · rename_i hb
      split at hp <;> cases hp
      rename_i conn hpc
      have hstep := server_step hb h
      generalize t.server = s at hstep
      cases DownloadRule.of_downloadStep hstep with
      | pop conn' job queue hpc' hqueue =>
        obtain ⟨o, os, horigins⟩ := hA.exists_origin hqueue
        have hmatched := hw.matched
        rw [waitingConns, downloadTurns, hpc, horigins] at hmatched
        obtain ⟨i, rfl, hlabel, -⟩ := hmatched.head
        rw [horigins]
        exact ⟨by rw [hlabel]; rfl, hlabel⟩
    · cases hp
  · intro p hp
    unfold verified at hp
    split at hp
    · rename_i hb
      split at hp <;> cases hp
      rename_i conn job hpc
      obtain rfl := serverAction_download hb
      obtain ⟨c, hc, hid, hip⟩ := hC (conn, job) (by rw [hpc]; rfl)
      obtain ⟨i, hi, -, call, hcall, hconn⟩ := hw.serving conn (by rw [hpc]; rfl)
      obtain ⟨call', hcall', haddr⟩ := hA.compared (conn, job) (by rw [hpc]; rfl) i hi
      obtain rfl : call = call' := Option.some.inj (hcall.symm.trans hcall')
      rw [← haddr, hconn] at hip
      exact List.any_eq_true.mpr ⟨c, hc, by simpa using ⟨hid, hip⟩⟩
    · cases hp
  · unfold failsToOpen
    split
    · rename_i ok hb
      obtain rfl := serverAction_download hb
      rw [show ok = true from hC]
      rfl
    · rfl

end DownloadsMatched

end World

/-- Client `n`, registered, asks for a file of 1000 bytes, call `i`, up to the answer of the server
and the entry in the queue. -/
def downloadRequest (n : UInt8) (i : ℕ) : List WorldAction :=
  let req : DownloadRequest := ⟨2, Vector.replicate 16 n, 7, 1⟩
  let d := req.datagram 0 (cstr "a")
  let register : Bytes := [MessageType.clientIdReq.code, 0, 0, 0, 1, 0, 0, 0]
  [.inject ⟨n.toUInt32, 5000⟩ register, .deliver 0 (unused register) 0 (Vector.replicate 16 n),
    .downloadStart ⟨⟨n.toUInt32, 5000⟩, 0, req, cstr "a", .sending⟩, .downloadSend i true,
    .deliver 0 (unused d) 0 (Vector.replicate 16 0), .server (.client (.stat (some ⟨false, 1000⟩))),
    .server (.client (.chmod true)), .server (.client (.reply true)),
    .server (.client (.enqueue 0))]

/-- The client of call `i` takes answer `k` and connects. -/
def downloadConnection (i k : ℕ) : List WorldAction :=
  [.downloadAnswer i k ⟨0, 0, Vector.replicate 16 0⟩, .downloadConnect i 6000]

/-- An iteration of `download_thread`, up to the comparison. -/
def downloadIteration : List WorldAction :=
  [.accept true, .pop, .verify].map fun a => .server (.download a)

/-- If the clients connect in turn, no other host does, and the clients of the jobs stay registered,
every removed job is served to its client. -/
theorem servedOwn_of_along {dir : Bytes} {as : List WorldAction} {w : World}
    (h : run World.step (.init dir) as = some w)
    (hC : Along World.step World.DownloadsInTurn (.init dir) as) :
    w.ServedOwn (trace World.step World.downloadEvents (.init dir) as) := by
  have hinv : w.DownloadInv (trace World.step World.downloadEvents (.init dir) as) ∧
      w.Addressed ∧ w.DownloadsMatched := by
    refine along_trace_invariant
      (I := fun w events => w.DownloadInv events ∧ w.Addressed ∧ w.DownloadsMatched)
      ⟨.init dir, .init dir, .init dir⟩ ?_ hC h
    rintro w a t events ⟨hw, hA, hM⟩ hC h
    exact ⟨hw.step (hM.servesOwn hA hC h) h, hA.step h, hM.step hA hC h⟩
  exact hinv.1.served

/-- Client 2 connects while client 1 waits; both are served. -/
theorem servedOwn_two :
    let as := downloadRequest 1 0 ++ downloadRequest 2 1 ++ downloadConnection 0 1
      ++ downloadConnection 1 2 ++ downloadIteration ++ [.server (.download (.openFile true)),
        .server (.download .finish)] ++ downloadIteration
      ++ [.server (.download (.openFile true))]
    trace World.step World.downloadEvents (.init []) as
        = [.removed (.download 0), .served (.download 0) (some ⟨0, true⟩),
          .removed (.download 1), .served (.download 1) (some ⟨1, true⟩)] ∧
      ∃ w, run World.step (.init []) as = some w ∧
        w.ServedOwn (trace World.step World.downloadEvents (.init []) as) := by
  intro as
  obtain ⟨w, hw⟩ := Option.isSome_iff_exists.mp
    (show (run World.step (.init []) as).isSome = true by decide +kernel)
  exact ⟨by decide +kernel, w, hw, servedOwn_of_along hw (by decide +kernel)⟩

/-- Another host connects before the client does; the job of the client is removed and dropped. -/
theorem not_servedOwn_foreign :
    ¬ ∀ dir as w, run World.step (.init dir) as = some w →
      w.ServedOwn (trace World.step World.downloadEvents (.init dir) as) := by
  intro h
  obtain ⟨w, hw, hservice⟩ := Option.map_eq_some_iff.mp
    (show (run World.step (.init []) (downloadRequest 1 0 ++ [.foreignConnect ⟨9, 9⟩]
      ++ downloadIteration)).map World.inService = some [] by decide +kernel)
  have hevents : trace World.step World.downloadEvents (.init []) (downloadRequest 1 0
      ++ [.foreignConnect ⟨9, 9⟩] ++ downloadIteration) = [.removed (.download 0)] := by
    decide +kernel
  have hserved := (h [] _ w hw).1
  rw [hevents, hservice] at hserved
  simp [DownloadEvent.removed?, DownloadEvent.served?, List.filterMap_cons] at hserved

end Pcd
