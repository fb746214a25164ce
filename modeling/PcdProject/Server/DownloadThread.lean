import PcdProject.Server.State

/-!
# The download thread

`download_thread` in steps: accept a connection, wait for a job, verify that the connection comes
from the client, send the file.
-/

namespace Pcd

/-- A step of `download_thread`, with what the system decides in it. -/
inductive DownloadAction where
  | accept (ok : Bool)
  | pop
  | verify
  | openFile (ok : Bool)
  | finish

/-- The test under "Verify client IP and client_id". -/
def clientValid (clients : List ClientInfo) (job : DownloadJob) (conn : Connection) : Bool :=
  clients.any fun c => c.clientId = job.clientId ∧ c.addr.ip = conn.addr.ip

namespace Server

/-- A step of `download_thread`; `none` if it is not at this step or has to wait. -/
def downloadStep (s : Server) (a : DownloadAction) : Option Server :=
  match s.downloadThread, a with
  | .accepting, .accept ok =>
    if ok then
      match s.downloadBacklog with
      | []              => none
      | conn :: backlog =>
        some { s with
          downloadBacklog := backlog
          downloadThread := .waiting conn }
    else some s
  | .waiting conn, .pop =>
    match s.downloadQueue with
    | []           => none
    | job :: queue =>
      some { s with
        downloadQueue := queue
        downloadThread := .verifying conn job }
  | .verifying conn job, .verify =>
    if clientValid s.clients job conn then some { s with downloadThread := .opening conn job }
    else some { s with downloadThread := .accepting }
  | .opening conn job, .openFile ok =>
    if ok then some { s with downloadThread := .sending conn job }
    else some { s with downloadThread := .accepting }
  | .sending _ _, .finish => some { s with downloadThread := .accepting }
  | _, _ => none

end Server

/-! ### What a step changes -/

inductive DownloadRule (s : Server) : DownloadAction → Server → Prop where
  | accept (conn : Connection) (backlog : List Connection)
      (hpc : s.downloadThread = .accepting) (hconn : s.downloadBacklog = conn :: backlog) :
      DownloadRule s (.accept true)
        { s with
          downloadBacklog := backlog
          downloadThread := .waiting conn }
  | acceptFail (hpc : s.downloadThread = .accepting) : DownloadRule s (.accept false) s
  | pop (conn : Connection) (job : DownloadJob) (queue : List DownloadJob)
      (hpc : s.downloadThread = .waiting conn) (hqueue : s.downloadQueue = job :: queue) :
      DownloadRule s .pop
        { s with
          downloadQueue := queue
          downloadThread := .verifying conn job }
  | valid (conn : Connection) (job : DownloadJob) (hpc : s.downloadThread = .verifying conn job)
      (hvalid : clientValid s.clients job conn = true) :
      DownloadRule s .verify { s with downloadThread := .opening conn job }
  | invalid (conn : Connection) (job : DownloadJob) (hpc : s.downloadThread = .verifying conn job)
      (hinvalid : clientValid s.clients job conn = false) :
      DownloadRule s .verify { s with downloadThread := .accepting }
  | openFile (conn : Connection) (job : DownloadJob)
      (hpc : s.downloadThread = .opening conn job) :
      DownloadRule s (.openFile true) { s with downloadThread := .sending conn job }
  | openFail (conn : Connection) (job : DownloadJob)
      (hpc : s.downloadThread = .opening conn job) :
      DownloadRule s (.openFile false) { s with downloadThread := .accepting }
  | finish (conn : Connection) (job : DownloadJob) (hpc : s.downloadThread = .sending conn job) :
      DownloadRule s .finish { s with downloadThread := .accepting }

lemma DownloadRule.of_downloadStep {s t : Server} {a : DownloadAction}
    (h : s.downloadStep a = some t) : DownloadRule s a t := by
  unfold Server.downloadStep at h
  split at h
  · rename_i ok hpc
    split_ifs at h with hok
    · subst hok
      split at h
      · cases h
      · rename_i conn backlog hconn
        cases h
        exact .accept conn backlog hpc hconn
    · cases h
      rw [Bool.not_eq_true] at hok
      subst hok
      exact .acceptFail hpc
  · rename_i conn hpc
    split at h
    · cases h
    · rename_i job queue hqueue
      cases h
      exact .pop conn job queue hpc hqueue
  · rename_i conn job hpc
    split_ifs at h with hvalid <;> cases h
    · exact .valid conn job hpc hvalid
    · exact .invalid conn job hpc (by simpa using hvalid)
  · rename_i conn job ok hpc
    split_ifs at h with hok
    · cases h
      subst hok
      exact .openFile conn job hpc
    · cases h
      rw [Bool.not_eq_true] at hok
      subst hok
      exact .openFail conn job hpc
  · rename_i conn job hpc
    cases h
    exact .finish conn job hpc
  · cases h

end Pcd
