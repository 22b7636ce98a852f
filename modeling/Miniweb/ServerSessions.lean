import Miniweb.ServerFollows
import Miniweb.ServerProofs

/-! The whole server seen from one socket is the connection of
`Miniweb.Net.Session`. Whatever the dispatcher and the other workers do in
between, the requests dispatched on a socket are those of a run of that model
over exactly the bytes received on it, as long as the sweeps leave alone what
is in somebody's hands. What is proved of one connection holds of every socket
of the server. -/
namespace Miniweb.ServerSessions

open Miniweb.Core Miniweb.Net Miniweb.Lib Miniweb.Lib.CString Miniweb.ServerOwnership
open Miniweb.SessionRuns Miniweb.ServerFollows

variable {conf : Conf} {s : Server} {log : ServerLog} {maxReqSize : Int} {received : Bytes}
  {dispatched : List Request} {now : Time}

/-! ## The server and its connections -/

/-- In every run of the server whose sweeps close nothing that is in somebody's
hands, and for every socket: the requests dispatched on it are those that some
run of the one-connection model has dispatched over exactly the bytes received
on it. A worker about to call `recv` on it holds the connection of that run, and
so does its slot while it waits for its next event. -/
theorem sockets_are_sessions {system : Nat} (reached : LoggedRun conf system now (s, log)) :
    (∀ k, ∃ stage, Stands conf.maxReqSize (log.received k) (log.dispatched k) stage) ∧
      (∀ w h, s.workers w = .reading h →
        Stands conf.maxReqSize (log.received h.inst) (log.dispatched h.inst)
          (.reading (s.pool.pool h.slot))) ∧
      ∀ i p, s.pool.connections i = some p → (∀ w, slotOf (s.workers w) ≠ some p) →
        Stands conf.maxReqSize (log.received (s.inst p)) (log.dispatched (s.inst p))
          (.armed (s.pool.pool p)) := by
  obtain ⟨_, _, follows⟩ := follows_reach reached
  exact ⟨follows.stands, follows.reading, fun i p entry unheld =>
    follows.armed i p entry fun w busy => unheld w (slotOf_of_busyOf busy)⟩

/-- Two clients whose requests come in pieces, between each other's. -/
def piecesInBetween : List ServerAct :=
  ServerProofs.twoConnections ++ [.recv 0 (.data (lit "GET / HT")) 1,
    .recv 1 (.data (lit "GET /docs HTTP/1.1\r\n\r\n")) 1,
    .recv 0 (.data (lit "TP/1.1\r\n\r\n")) 2, .handled 1 {} 2]

theorem sockets_are_sessions_two :
    ∃ x : Server × ServerLog, x.2.received 0 = lit "GET / HTTP/1.1\r\n\r\n" ∧
      (x.2.dispatched 0).map Request.url = [lit "/"] ∧
      (x.2.dispatched 1).map Request.url = [lit "/docs"] ∧
      ∃ stage, Stands (confDefaults 4).maxReqSize (x.2.received 0) (x.2.dispatched 0) stage := by
  have ran : (Transition.run (Transition.guarded
      (fun x act => ServerProofs.scansNothing (confDefaults 4) x.1 act = true)
      (loggedStep (confDefaults 4))) (serverStart 7 0, ServerLog.empty) piecesInBetween).map
      (fun x => (x.2.received 0, (x.2.dispatched 0).map Request.url,
        (x.2.dispatched 1).map Request.url)) =
      some (lit "GET / HTTP/1.1\r\n\r\n", [lit "/"], [lit "/docs"]) := by decide +kernel
  obtain ⟨⟨s, log⟩, reached, seen⟩ := Transition.exists_reach_of_run ran
  simp only [Prod.mk.injEq] at seen
  have reached : LoggedRun (confDefaults 4) 7 0 (s, log) :=
    reached.mono fun _ _ => ServerProofs.sweepsUnused_of_scansNothing
  exact ⟨(s, log), seen.1, seen.2.1, seen.2.2, (sockets_are_sessions reached).1 0⟩

/-! ## What holds of one connection holds of every socket -/

/-- The requests of a connection are counted in it until it is closed. -/
def Counts (session : Session) : Prop :=
  session.dispatched.length ≤ maxKeepaliveRequests + 1 ∧
    ∀ conn, SessionProofs.Stage.conn? session.stage = some conn →
      conn.requestsServed = session.dispatched.length ∧ conn.requestsServed ≤ maxKeepaliveRequests

theorem counts_step {session session' : Session} {act : SessionAct} (counts : Counts session)
    (taken : sessionStep maxReqSize session act = some session') : Counts session' := by
  cases act with
  | send bytes =>
    simp only [sessionStep] at taken
    split at taken <;> cases taken
    exact counts
  | finish =>
    cases taken
    exact counts
  | pop =>
    simp only [sessionStep] at taken
    split at taken
    · rename_i conn armed
      cases taken
      refine ⟨counts.1, ?_⟩
      rintro _ ⟨⟩
      exact counts.2 conn (by rw [armed]; rfl)
    · cases taken
  | receive result now handler rearmed =>
    obtain ⟨conn, reading, -, outcome⟩ := SessionProofs.receive_cases taken
    obtain ⟨counted, limit⟩ := counts.2 conn (by rw [reading]; rfl)
    rcases outcome with ⟨-, rfl⟩ | ⟨-, rfl⟩ | ⟨bytes, -, -, ⟨-, rfl⟩ | ⟨-, -, rfl⟩ | ⟨-, -, rfl⟩⟩
    · refine ⟨counts.1, ?_⟩
      rintro _ ⟨⟩
      exact ⟨counted, limit⟩
    · exact ⟨counts.1, by rintro _ ⟨⟩⟩
    · have served : (storeReceived conn bytes now).requestsServed = conn.requestsServed := rfl
      rcases SessionProofs.serveRequest_cases _ (storeReceived conn bytes now) now handler rearmed with
        ⟨-, same⟩ | ⟨req, -, ⟨-, below, -, same⟩ | ⟨-, same⟩⟩ <;> rw [same]
      · exact ⟨counts.1, by rintro _ ⟨⟩⟩
      · rw [served] at below
        refine ⟨?_, ?_⟩
        · simp only [List.length_append, List.length_singleton]
          omega
        · rintro _ ⟨⟩
          simp only [List.length_append, List.length_singleton, served]
          omega
      · refine ⟨?_, by rintro _ ⟨⟩⟩
        simp only [List.length_append, List.length_singleton]
        omega
    · exact ⟨counts.1, by rintro _ ⟨⟩⟩
    · refine ⟨counts.1, ?_⟩
      rintro _ ⟨⟩
      exact ⟨counted, limit⟩

theorem counts_of_stands {stage : Stage} (stands : Stands maxReqSize received dispatched stage) :
    Counts ⟨stage, ⟨[], false⟩, dispatched⟩ := by
  obtain ⟨fd, addr, gen, start, reached⟩ := stands
  refine reached.invariant ?_ fun _ _ _ counts _ taken => counts_step counts taken
  refine ⟨Nat.zero_le _, ?_⟩
  rintro _ ⟨⟩
  exact ⟨rfl, Nat.zero_le _⟩

/-- In every run of the server from a configuration that start-up accepts: what
a worker asks of `recv` fits the buffer of its slot with the NUL behind it, and
no socket is given more than one request beyond the keep-alive limit. -/
theorem buffers_and_limits {env : StartEnv} {argv : List Bytes} {system : Nat}
    (started : parseArgs env argv = .ok conf) (reached : LoggedRun conf system now (s, log)) :
    (∀ w h, s.workers w = .reading h →
      (s.pool.pool h.slot).bytesRead + recvLength conf.maxReqSize (s.pool.pool h.slot) + 1 ≤
        requestBufferSize) ∧
      ∀ k, (log.dispatched k).length ≤ maxKeepaliveRequests + 1 := by
  obtain ⟨lower, upper⟩ := ConfProofs.parseArgs_maxReqSize started
  obtain ⟨_, _, follows⟩ := follows_reach reached
  refine ⟨fun w h reading => ?_, fun k => ?_⟩
  · obtain ⟨fd, addr, gen, start, run⟩ := follows.reading w h reading
    have room := SessionProofs.roomInv_reach lower upper run _ rfl
    have length := SessionProofs.recvLength_eq lower upper room
    simp only [requestBufferSize]
    omega
  · obtain ⟨stage, stands⟩ := follows.stands k
    exact (counts_of_stands stands).1

/-- What the connection of a worker about to call `recv` holds. -/
def readSoFar (s : Server) (w : Nat) : Option Nat :=
  match s.workers w with
  | .reading h => some (s.pool.pool h.slot).bytesRead
  | _ => none

/-- Worker 0 is about to receive the rest of its request; the other client has
its request dispatched. -/
theorem buffers_and_limits_two :
    ∃ x : Server × ServerLog, ∃ h, x.1.workers 0 = .reading h ∧
      (x.1.pool.pool h.slot).bytesRead = 8 ∧
      8 + recvLength (confDefaults 4).maxReqSize (x.1.pool.pool h.slot) + 1 ≤ requestBufferSize ∧
      (x.2.dispatched 1).length = 1 ∧ ∀ k, (x.2.dispatched k).length ≤ maxKeepaliveRequests + 1 := by
  have ran : (Transition.run (Transition.guarded
      (fun x act => ServerProofs.scansNothing (confDefaults 4) x.1 act = true)
      (loggedStep (confDefaults 4))) (serverStart 7 0, ServerLog.empty)
      piecesInBetween.dropLast.dropLast).map
      (fun x => (readSoFar x.1 0, (x.2.dispatched 1).length)) = some (some 8, 1) := by decide +kernel
  obtain ⟨⟨s, log⟩, reached, seen⟩ := Transition.exists_reach_of_run ran
  simp only [Prod.mk.injEq] at seen
  have reached : LoggedRun (confDefaults 4) 7 0 (s, log) :=
    reached.mono fun _ _ => ServerProofs.sweepsUnused_of_scansNothing
  obtain ⟨fits, limit⟩ := buffers_and_limits ConfProofs.plainStart_conf reached
  obtain ⟨some_read, one⟩ := seen
  unfold readSoFar at some_read
  split at some_read
  · rename_i h reading
    have length := fits 0 h reading
    rw [Option.some.inj some_read] at length
    exact ⟨(s, log), h, reading, Option.some.inj some_read, length, one, limit⟩
  · cases some_read

end Miniweb.ServerSessions
